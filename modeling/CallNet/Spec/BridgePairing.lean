import CallNet.ForStd.Slots
import CallNet.Streaming.BrowserBridge

/-!
# Who is paired with whom

The handlers of a browser socket compare it with the browser of their pair before they detach
it; `onStop` and `onAudio` make no such comparison for the session.  `paired_throughout_iff` says
what that leaves: pairing is right exactly as long as a session stops as the only live one of its
key, and no browser is there to hear the audio of a session that is not the latest.
-/

namespace CallNet.Streaming

/-- No event said that the socket is gone. -/
def BridgeBrowser.connected (b : BridgeBrowser) : Bool := b.state = .open ∨ b.state = .closing

/-- Let go of the browser, if it is the one. -/
def Pair.without (w : Nat) (p : Pair) : Pair :=
  if p.browser = some w then { p with browser := none } else p

theorem Pair.without_session (w : Nat) (p : Pair) : (p.without w).session = p.session := by
  unfold Pair.without
  split <;> rfl

namespace BrowserBridge

open Machine (Meets Throughout)

variable {s s' : BrowserBridge} {e : BridgeEvent} {key : String} {id : Nat}

/-! ## The property and its condition -/

/-- The session that the pair of a key has. -/
def session (s : BrowserBridge) (key : String) : Option Nat := (s.current key).bind Pair.session

/-- The browser that the pair of a key has. -/
def attached (s : BrowserBridge) (key : String) : Option Nat := (s.current key).bind Pair.browser

/-- The most recently started session of the key among those that are live. -/
def LatestSession (s : BrowserBridge) (key : String) (k : Nat) : Prop :=
  ∃ x, s.sessions[k]? = some x ∧ x.bridgeKey = key ∧ x.live = true ∧
    ∀ (j : Nat) (y : BridgeSession), k < j → s.sessions[j]? = some y → y.bridgeKey = key →
      y.live = false

/-- The last browser that connected with the key, unless it is gone. -/
def LatestBrowser (s : BrowserBridge) (key : String) (w : Nat) : Prop :=
  ∃ b, s.browsers[w]? = some b ∧ b.key = key ∧ b.connected = true ∧
    ∀ (j : Nat) (c : BridgeBrowser), w < j → s.browsers[j]? = some c → c.key ≠ key

structure Paired (s : BrowserBridge) : Prop where
  /-- The pair of a key has the latest live session, so no other one's stop detached it. -/
  session_iff : ∀ key k, s.session key = some k ↔ s.LatestSession key k
  /-- Only a later browser, and its own end, detaches a browser. -/
  browser_iff : ∀ key w, s.attached key = some w ↔ s.LatestBrowser key w
  /-- Audio that was sent was audio of the pair's session at that moment. -/
  audio : ∀ (w k : Nat) (c : Option Nat), (w, .audio k c) ∈ s.sent → c = some k
  /-- A pair without a session and a browser is left only until the `close` of a browser that
      failed. -/
  removed : ∀ key p, s.current key = some p → p.session = none → p.browser = none →
    ∃ (w : Nat) (b : BridgeBrowser), s.browsers[w]? = some b ∧ b.key = key ∧ b.state = .failed

/-- A session that stops is the only live one of its key; if the key is empty, so that its pair
    is left alone, it is not the latest. -/
def StopsAlone (s : BrowserBridge) (k : Nat) : Prop :=
  ∀ x, s.sessions[k]? = some x → x.live = true →
    if x.bridgeKey = "" then ¬ s.LatestSession "" k
    else ∀ (j : Nat) (y : BridgeSession), s.sessions[j]? = some y → y.bridgeKey = x.bridgeKey →
      y.live = true → j = k

/-- A session whose audio comes while an open browser is attached is the latest live one. -/
def PlaysLatest (s : BrowserBridge) (k : Nat) : Prop :=
  ∀ x, s.sessions[k]? = some x → ∀ w, s.LatestBrowser x.bridgeKey w → s.isOpen w = true →
    s.LatestSession x.bridgeKey k

def RespectsPairs (s : BrowserBridge) : BridgeEvent → Prop
  | .onStop k => s.StopsAlone k
  | .onAudio k => s.PlaysLatest k
  | _ => True

/-! ## Pair objects

The map finds an object of its key, an object that it does not find any more is empty, and a
browser that stands in an object was made with it. -/

structure Sound (s : BrowserBridge) : Prop where
  found : ∀ key id, s.pairs.get? key = some id → ∃ p, s.objects[id]? = some (key, p)
  dead : ∀ (id : Nat) (key : String) (p : Pair), s.objects[id]? = some (key, p) →
    s.pairs.get? key ≠ some id → p.session = none ∧ p.browser = none
  captured : ∀ (w : Nat) (b : BridgeBrowser), s.browsers[w]? = some b →
    b.key ≠ "" ∧ ∃ p, s.objects[b.pair]? = some (b.key, p)
  holder : ∀ (id : Nat) (key : String) (p : Pair) (w : Nat), s.objects[id]? = some (key, p) →
    p.browser = some w → ∃ b, s.browsers[w]? = some b ∧ b.pair = id

theorem sound_init : init.Sound := ⟨nofun, nofun, nofun, nofun⟩

theorem current_of_get? (h : s.Sound) (hid : s.pairs.get? key = some id) :
    ∃ p, s.objects[id]? = some (key, p) ∧ s.current key = some p := by
  obtain ⟨p, hp⟩ := h.found key id hid
  exact ⟨p, hp, by rw [current, hid, Option.bind_some, hp]; rfl⟩

theorem current_of_get?_none (hid : s.pairs.get? key = none) : s.current key = none := by
  rw [current, hid]
  rfl

/-- The objects after `pair`: those that were there, and perhaps a fresh one at the end. -/
theorem pair_spec (h : s.Sound) (key : String) :
    (s.pair key).1.pairs.get? key = some (s.pair key).2 ∧ (s.pair key).1.Sound ∧
    (∀ key', (s.pair key).1.current key' =
      if key' = key then some ((s.current key).getD .fresh) else s.current key') ∧
    (s.pair key).1.sessions = s.sessions ∧ (s.pair key).1.browsers = s.browsers ∧
    (s.pair key).1.sent = s.sent := by
  cases hid : s.pairs.get? key with
  | some id =>
    have hpair : s.pair key = (s, id) := by simp only [pair, hid]
    rw [hpair]
    refine ⟨hid, h, fun key' => ?_, rfl, rfl, rfl⟩
    obtain ⟨p, -, hcur⟩ := current_of_get? h hid
    split
    · rename_i heq
      rw [heq, hcur, Option.getD_some]
    · rfl
  | none =>
    have hpair : s.pair key =
        ({ s with pairs := s.pairs.set key s.objects.length
                  objects := s.objects ++ [(key, .fresh)] }, s.objects.length) := by
      simp only [pair, hid]
    rw [hpair]
    -- the fresh object comes after all that have a number, so these keep theirs
    have hold : ∀ {id : Nat} {x : String × Pair}, s.objects[id]? = some x →
        (s.objects ++ [(key, Pair.fresh)])[id]? = some x := fun hx =>
      (List.getElem?_append_left (List.getElem?_eq_some_iff.mp hx).1).trans hx
    have hcases : ∀ {id : Nat} {x : String × Pair},
        (s.objects ++ [(key, Pair.fresh)])[id]? = some x →
        s.objects[id]? = some x ∨ (id = s.objects.length ∧ x = (key, Pair.fresh)) := by
      intro id x hx
      rcases Nat.lt_or_ge id s.objects.length with hlt | hge
      · exact .inl (by rwa [List.getElem?_append_left hlt] at hx)
      · have hlast := (List.getElem?_eq_some_iff.mp hx).1
        rw [List.length_append, List.length_singleton] at hlast
        rw [List.getElem?_append_right hge] at hx
        exact .inr ⟨by omega, List.mem_singleton.mp (List.mem_of_getElem? hx)⟩
    have hnew : (s.objects ++ [(key, Pair.fresh)])[s.objects.length]? =
        some (key, Pair.fresh) := by simp
    refine ⟨OrdMap.get?_set_self .., ⟨?_, ?_, ?_, ?_⟩, fun key' => ?_, rfl, rfl, rfl⟩
    · intro key' id' hid'
      rw [OrdMap.get?_set] at hid'
      split at hid'
      · rename_i heq
        cases hid'
        exact ⟨.fresh, heq ▸ hnew⟩
      · obtain ⟨p, hp⟩ := h.found key' id' hid'
        exact ⟨p, hold hp⟩
    · -- an object without an entry had none before, unless it is the fresh one
      intro id' key' p hp hne
      rcases hcases hp with hp | ⟨rfl, heq⟩
      · refine h.dead id' key' p hp fun hid' => hne ?_
        rw [OrdMap.get?_set_ne _ _ fun heq => ?_]
        · exact hid'
        · rw [heq, hid] at hid'
          cases hid'
      · cases heq
        exact absurd (OrdMap.get?_set_self ..) hne
    · intro w b hb
      obtain ⟨hne, p, hp⟩ := h.captured w b hb
      exact ⟨hne, p, hold hp⟩
    · intro id' key' p w hp hw
      rcases hcases hp with hp | ⟨rfl, heq⟩
      · exact h.holder id' key' p w hp hw
      · cases heq
        cases hw
    · rw [current, OrdMap.get?_set]
      split
      · rw [Option.bind_some, hnew, current_of_get?_none hid]
        rfl
      · rename_i hne
        cases hid' : s.pairs.get? key' with
        | none =>
          rw [current_of_get?_none hid']
          rfl
        | some id' =>
          obtain ⟨p, hp, hcur⟩ := current_of_get? h hid'
          rw [hcur, Option.bind_some, hold hp]
          rfl

/-- The objects after one of them was changed. -/
theorem objects_modifyPair {f : Pair → Pair} {id' : Nat} {x : String × Pair} :
    (s.modifyPair id f).objects[id']? = some x ↔
      ∃ p, s.objects[id']? = some (x.1, p) ∧ x.2 = if id' = id then f p else p := by
  obtain ⟨key, q⟩ := x
  simp only [modifyPair, List.getElem?_modify]
  cases hobj : s.objects[id']? with
  | none => simp
  | some e =>
    obtain ⟨key', p⟩ := e
    by_cases hid : id' = id
    · simp only [hid, if_true, Option.map_eq_map, Option.map_some, Option.some.injEq,
        Prod.mk.injEq]
      constructor
      · rintro ⟨rfl, rfl⟩
        exact ⟨p, ⟨rfl, rfl⟩, rfl⟩
      · rintro ⟨p', ⟨rfl, rfl⟩, rfl⟩
        exact ⟨rfl, rfl⟩
    · simp only [hid, Ne.symm hid, if_false, Option.map_eq_map, Option.map_some,
        Option.some.injEq, Prod.mk.injEq]
      constructor
      · rintro ⟨rfl, rfl⟩
        exact ⟨p, ⟨rfl, rfl⟩, rfl⟩
      · rintro ⟨p', ⟨rfl, rfl⟩, rfl⟩
        exact ⟨rfl, rfl⟩

/-- The pairs that the map finds, after one object was changed. -/
theorem current_modifyPair (f : Pair → Pair) (key : String) :
    (s.modifyPair id f).current key =
      if s.pairs.get? key = some id then (s.current key).map f else s.current key := by
  have hpairs : (s.modifyPair id f).pairs = s.pairs := rfl
  cases hid : s.pairs.get? key with
  | none =>
    rw [current, current, hpairs, hid]
    rfl
  | some id' =>
    rw [current, current, hpairs, hid, Option.bind_some, Option.bind_some]
    simp only [modifyPair, List.getElem?_modify]
    by_cases heq : id' = id
    · subst heq
      cases s.objects[id']? <;> simp
    · cases s.objects[id']? <;> simp [heq, Ne.symm heq]

/-- The object that the map has for a key is no other key's. -/
theorem current_modifyPair_key (h : s.Sound) (hid : s.pairs.get? key = some id) (f : Pair → Pair)
    (key' : String) : (s.modifyPair id f).current key' =
      if key' = key then (s.current key).map f else s.current key' := by
  rw [current_modifyPair]
  by_cases heq : key' = key
  · rw [heq, if_pos hid, if_pos rfl]
  · rw [if_neg heq, if_neg]
    intro hid'
    obtain ⟨p, hp⟩ := h.found key id hid
    obtain ⟨q, hq⟩ := h.found key' id hid'
    rw [hp] at hq
    cases hq
    exact heq rfl

theorem Sound.modifyPair (h : s.Sound) (key : String) (f : Pair → Pair)
    (hdead : ∀ p, p.session = none → p.browser = none → s.objects[id]? = some (key, p) →
      s.pairs.get? key = some id ∨ ((f p).session = none ∧ (f p).browser = none))
    (hkey : ∀ p k, s.objects[id]? = some (k, p) → k = key)
    (hheld : ∀ p w, s.objects[id]? = some (key, p) → (f p).browser = some w →
      ∃ b, s.browsers[w]? = some b ∧ b.pair = id) :
    (s.modifyPair id f).Sound where
  found key' id' hid' := by
    obtain ⟨p, hp⟩ := h.found key' id' hid'
    exact ⟨_, objects_modifyPair.mpr ⟨p, hp, rfl⟩⟩
  dead id' key' q hq hne := by
    obtain ⟨p, hp, hqp⟩ := objects_modifyPair.mp hq
    simp only at hp hqp
    obtain ⟨hsession, hbrowser⟩ := h.dead id' key' p hp hne
    by_cases hid : id' = id
    · subst hid
      obtain rfl := hkey p key' hp
      rw [if_pos rfl] at hqp
      rw [hqp]
      exact (hdead p hsession hbrowser hp).resolve_left hne
    · rw [if_neg hid] at hqp
      rw [hqp]
      exact ⟨hsession, hbrowser⟩
  captured w b hb := by
    obtain ⟨hne, p, hp⟩ := h.captured w b hb
    exact ⟨hne, _, objects_modifyPair.mpr ⟨p, hp, rfl⟩⟩
  holder id' key' q w hq hw := by
    obtain ⟨p, hp, hqp⟩ := objects_modifyPair.mp hq
    simp only at hp hqp
    by_cases hid : id' = id
    · subst hid
      obtain rfl := hkey p key' hp
      rw [if_pos rfl] at hqp
      exact hheld p w hp (hqp ▸ hw)
    · rw [if_neg hid] at hqp
      exact h.holder id' key' p w hp (hqp ▸ hw)

/-- What `cleanup` does to the pairs: a pair with neither side goes. -/
theorem cleanup_spec (h : s.Sound) (key : String) :
    (s.cleanup key).Sound ∧
    (∀ key', (s.cleanup key).current key' =
      if key' = key then (s.current key).filter fun p => ¬ (p.session = none ∧ p.browser = none)
      else s.current key') ∧
    (s.cleanup key).sessions = s.sessions ∧ (s.cleanup key).browsers = s.browsers ∧
    (s.cleanup key).sent = s.sent := by
  have hkept : s.cleanup key = s → ((s.current key).filter fun p =>
      ¬ (p.session = none ∧ p.browser = none)) = s.current key →
      (s.cleanup key).Sound ∧ (∀ key', (s.cleanup key).current key' =
        if key' = key then (s.current key).filter fun p => ¬ (p.session = none ∧ p.browser = none)
        else s.current key') ∧ (s.cleanup key).sessions = s.sessions ∧
      (s.cleanup key).browsers = s.browsers ∧ (s.cleanup key).sent = s.sent := by
    intro heq hfilter
    rw [heq]
    refine ⟨h, fun key' => ?_, rfl, rfl, rfl⟩
    split
    · rename_i hk
      rw [hfilter, hk]
    · rfl
  cases hcur : s.current key with
  | none =>
    rw [← hcur]
    exact hkept (by simp only [cleanup, hcur]) (by rw [hcur]; rfl)
  | some p =>
    by_cases hempty : p.session = none ∧ p.browser = none
    · have heq : s.cleanup key = { s with pairs := s.pairs.delete key } := by
        simp only [cleanup, hcur]
        exact if_pos hempty
      rw [heq]
      refine ⟨⟨?_, ?_, h.captured, h.holder⟩, fun key' => ?_, rfl, rfl, rfl⟩
      · intro key' id' hid'
        rw [OrdMap.get?_delete] at hid'
        split at hid'
        · cases hid'
        · exact h.found key' id' hid'
      · intro id' key' q hq hne
        by_cases hid' : s.pairs.get? key' = some id'
        · -- the object that the map has let go of is the empty one
          by_cases heq : key' = key
          · subst heq
            rw [current, hid', Option.bind_some, hq] at hcur
            cases hcur
            exact hempty
          · rw [OrdMap.get?_delete_ne _ heq] at hne
            exact absurd hid' hne
        · exact h.dead id' key' q hq hid'
      · rw [current, OrdMap.get?_delete]
        split
        · simp [Option.filter, hempty.1, hempty.2]
        · rfl
    · rw [← hcur]
      refine hkept ?_ ?_
      · simp only [cleanup, hcur]
        exact if_neg hempty
      · rw [hcur, Option.filter, if_pos (decide_eq_true hempty)]

theorem detach_spec (h : s.Sound) {w : Nat} {b : BridgeBrowser} (hb : s.browsers[w]? = some b) :
    (s.detach w b).Sound ∧ ∀ key', (s.detach w b).current key' =
      if key' = b.key then (s.current b.key).map (Pair.without w) else s.current key' := by
  have hbrowser : ∀ (p : Pair) (w' : Nat), (Pair.without w p).browser = some w' →
      p.browser = some w' := fun p w' hw' => by
    unfold Pair.without at hw'
    split at hw'
    · cases hw'
    · exact hw'
  obtain ⟨-, p, hp⟩ := h.captured w b hb
  constructor
  · refine h.modifyPair b.key _ ?_ ?_ ?_
    · intro q hsession hnone _
      refine .inr ⟨(q.without_session w).trans hsession, ?_⟩
      show (Pair.without w q).browser = none
      unfold Pair.without
      split
      · rfl
      · exact hnone
    · intro q k hq
      rw [hp] at hq
      cases hq
      rfl
    · exact fun q w' hq hw' => h.holder b.pair b.key q w' hq (hbrowser q w' hw')
  · intro key'
    show (s.modifyPair b.pair (Pair.without w)).current key' = _
    by_cases hid : s.pairs.get? b.key = some b.pair
    · exact current_modifyPair_key h hid _ key'
    · have hother : ∀ k, s.pairs.get? k ≠ some b.pair := fun k hk => by
        obtain ⟨q, hq⟩ := h.found k b.pair hk
        rw [hp] at hq
        cases hq
        exact hid hk
      rw [current_modifyPair, if_neg (hother key')]
      split
      · rename_i heq
        subst heq
        -- the pair that the map has now is not the one of the browser
        cases hid' : s.pairs.get? b.key with
        | none => rw [current_of_get?_none hid']; rfl
        | some id' =>
          obtain ⟨q, hq, hcur⟩ := current_of_get? h hid'
          rw [hcur, Option.map_some, Pair.without, if_neg]
          intro hw
          obtain ⟨b', hb', hpair⟩ := h.holder id' b.key q w hq hw
          cases hb.symm.trans hb'
          exact hid (hpair ▸ hid')
      · rfl

/-! ## Sessions and browsers that come and go -/

/-- Sending changes what was sent, by the message at most. -/
theorem send_spec (s : BrowserBridge) (browser : Option Nat) (m : BridgeMessage) :
    ∃ extra, s.send browser m = { s with sent := s.sent ++ extra } ∧ ∀ x ∈ extra, x.2 = m := by
  unfold send
  split
  · split
    · exact ⟨[(_, m)], rfl, fun x hx => by rw [List.mem_singleton.mp hx]⟩
    · exact ⟨[], by rw [List.append_nil], nofun⟩
  · exact ⟨[], by rw [List.append_nil], nofun⟩

/-- A new session is the latest of its key. -/
theorem latestSession_start {x : BridgeSession} (hx : x.live = true)
    (hs : s'.sessions = s.sessions ++ [x]) (key : String) (k : Nat) :
    s'.LatestSession key k ↔
      if key = x.bridgeKey then k = s.sessions.length else s.LatestSession key k := by
  unfold LatestSession
  rw [hs]
  have hnew : (s.sessions ++ [x])[s.sessions.length]? = some x := by simp
  constructor
  · rintro ⟨y, hy, hkey, hlive, hlast⟩
    rcases List.getElem?_concat_cases hy with ⟨hlt, hy⟩ | ⟨rfl, rfl⟩
    · rw [if_neg]
      · exact ⟨y, hy, hkey, hlive, fun j z hj hz =>
          hlast j z hj (List.getElem?_concat_left hz)⟩
      · rintro rfl
        have hdead := hlast _ x hlt hnew rfl
        rw [hx] at hdead
        cases hdead
    · rw [if_pos hkey.symm]
  · split
    · rintro rfl
      refine ⟨x, hnew, ‹key = x.bridgeKey›.symm, hx, fun j z hj hz => ?_⟩
      rcases List.getElem?_concat_cases hz with ⟨hlt, -⟩ | ⟨rfl, -⟩
      · omega
      · omega
    · rename_i hne
      rintro ⟨y, hy, hkey, hlive, hlast⟩
      refine ⟨y, List.getElem?_concat_left hy, hkey, hlive, ?_⟩
      intro j z hj hz hzkey
      rcases List.getElem?_concat_cases hz with ⟨-, hz⟩ | ⟨-, rfl⟩
      · exact hlast j z hj hz hzkey
      · exact absurd hzkey.symm hne

/-- A new browser is the latest of its key. -/
theorem latestBrowser_connect {b : BridgeBrowser} (hb : b.connected = true)
    (hs : s'.browsers = s.browsers ++ [b]) (key : String) (w : Nat) :
    s'.LatestBrowser key w ↔
      if key = b.key then w = s.browsers.length else s.LatestBrowser key w := by
  unfold LatestBrowser
  rw [hs]
  have hnew : (s.browsers ++ [b])[s.browsers.length]? = some b := by simp
  constructor
  · rintro ⟨c, hc, hkey, hconn, hlast⟩
    rcases List.getElem?_concat_cases hc with ⟨hlt, hc⟩ | ⟨rfl, rfl⟩
    · rw [if_neg]
      · exact ⟨c, hc, hkey, hconn, fun j d hj hd =>
          hlast j d hj (List.getElem?_concat_left hd)⟩
      · exact fun heq => hlast _ b hlt hnew heq.symm
    · rw [if_pos hkey.symm]
  · split
    · rintro rfl
      refine ⟨b, hnew, ‹key = b.key›.symm, hb, fun j d hj hd => ?_⟩
      rcases List.getElem?_concat_cases hd with ⟨hlt, -⟩ | ⟨rfl, -⟩
      · omega
      · omega
    · rename_i hne
      rintro ⟨c, hc, hkey, hconn, hlast⟩
      refine ⟨c, List.getElem?_concat_left hc, hkey, hconn, ?_⟩
      intro j d hj hd hdkey
      rcases List.getElem?_concat_cases hd with ⟨-, hd⟩ | ⟨-, rfl⟩
      · exact hlast j d hj hd hdkey
      · exact hne hdkey.symm

/-- Without a session that was the only live one of its key, the key has none. -/
theorem latestSession_stop {k : Nat} {x : BridgeSession} (hx : s.sessions[k]? = some x)
    (halone : ∀ (j : Nat) (y : BridgeSession), s.sessions[j]? = some y →
      y.bridgeKey = x.bridgeKey → y.live = true → j = k)
    (hs : s'.sessions = s.sessions.set k { x with live := false }) (key : String) (j : Nat) :
    s'.LatestSession key j ↔ key ≠ x.bridgeKey ∧ s.LatestSession key j := by
  unfold LatestSession
  rw [hs]
  have hother : ∀ {i : Nat} {y : BridgeSession}, i ≠ k → s.sessions[i]? = some y →
      (s.sessions.set k { x with live := false })[i]? = some y := fun hi hy =>
    (List.getElem?_set_ne (Ne.symm hi)).trans hy
  constructor
  · rintro ⟨y, hy, hkey, hlive, hlast⟩
    rcases List.getElem?_set_cases hy with ⟨-, rfl⟩ | ⟨hj, hy⟩
    · cases hlive
    · have hne : key ≠ x.bridgeKey := fun heq => hj (halone j y hy (hkey.trans heq) hlive)
      refine ⟨hne, y, hy, hkey, hlive, fun i z hi hz hzkey => ?_⟩
      refine hlast i z hi (hother ?_ hz) hzkey
      rintro rfl
      rw [hx] at hz
      cases hz
      exact hne hzkey.symm
  · rintro ⟨hne, y, hy, hkey, hlive, hlast⟩
    have hj : j ≠ k := by
      rintro rfl
      rw [hx] at hy
      cases hy
      exact hne hkey.symm
    refine ⟨y, hother hj hy, hkey, hlive, fun i z hi hz hzkey => ?_⟩
    rcases List.getElem?_set_cases hz with ⟨-, rfl⟩ | ⟨-, hz⟩
    · rfl
    · exact hlast i z hi hz hzkey

/-- A key with a live session has a latest one. -/
theorem exists_latestSession {j : Nat} {y : BridgeSession} (hy : s.sessions[j]? = some y)
    (hlive : y.live = true) : ∃ k, s.LatestSession y.bridgeKey k := by
  -- the induction is on the number of sessions that come after
  induction hn : s.sessions.length - j using Nat.strongRecOn generalizing j y with
  | _ n ih =>
    by_cases hlater : ∃ (i : Nat) (z : BridgeSession), j < i ∧ s.sessions[i]? = some z ∧
        z.bridgeKey = y.bridgeKey ∧ z.live = true
    · obtain ⟨i, z, hi, hz, hkey, hzlive⟩ := hlater
      have hlt := List.lt_length_of_getElem? hz
      exact hkey ▸ ih (s.sessions.length - i) (by omega) hz hzlive rfl
    · refine ⟨j, y, hy, rfl, hlive, fun i z hi hz hkey => ?_⟩
      by_contra hzlive
      exact hlater ⟨i, z, hi, hz, hkey, by simpa using hzlive⟩

/-- The end of a session that is not the latest of its key leaves the latest ones what they are. -/
theorem latestSession_stop_earlier {k : Nat} {x : BridgeSession} (hx : s.sessions[k]? = some x)
    (hlive : x.live = true) (hnot : ¬ s.LatestSession x.bridgeKey k)
    (hs : s'.sessions = s.sessions.set k { x with live := false }) (key : String) (j : Nat) :
    s'.LatestSession key j ↔ s.LatestSession key j := by
  obtain ⟨m, z, hm, hz, hzkey, hzlive⟩ : ∃ (m : Nat) (z : BridgeSession), k < m ∧
      s.sessions[m]? = some z ∧ z.bridgeKey = x.bridgeKey ∧ z.live = true := by
    by_contra hlater
    refine hnot ⟨x, hx, rfl, hlive, fun i z hi hz hkey => ?_⟩
    by_contra hzlive
    exact hlater ⟨i, z, hi, hz, hkey, by simpa using hzlive⟩
  unfold LatestSession
  rw [hs]
  have hother : ∀ {i : Nat} {y : BridgeSession}, i ≠ k → s.sessions[i]? = some y →
      (s.sessions.set k { x with live := false })[i]? = some y := fun hi hy =>
    (List.getElem?_set_ne (Ne.symm hi)).trans hy
  constructor
  · rintro ⟨y, hy, hkey, hylive, hlast⟩
    rcases List.getElem?_set_cases hy with ⟨-, rfl⟩ | ⟨hj, hy⟩
    · cases hylive
    · refine ⟨y, hy, hkey, hylive, fun i w hi hw hwkey => ?_⟩
      by_cases hik : i = k
      · -- the session that ended cannot come after `j`, as `m` would come after it
        subst hik
        cases hx.symm.trans hw
        have hdead := hlast m z (by omega) (hother (by omega) hz) (hzkey.trans hwkey)
        rw [hzlive] at hdead
        cases hdead
      · exact hlast i w hi (hother hik hw) hwkey
  · rintro ⟨y, hy, hkey, hylive, hlast⟩
    have hj : j ≠ k := by
      rintro rfl
      cases hx.symm.trans hy
      have hdead := hlast m z hm hz (hzkey.trans hkey)
      rw [hzlive] at hdead
      cases hdead
    refine ⟨y, hother hj hy, hkey, hylive, fun i w hi hw hwkey => ?_⟩
    rcases List.getElem?_set_cases hw with ⟨-, rfl⟩ | ⟨-, hw⟩
    · rfl
    · exact hlast i w hi hw hwkey

/-- A browser that is gone is nobody's latest; the others stay what they were. -/
theorem latestBrowser_gone {w : Nat} {b : BridgeBrowser} {state : SocketState}
    (hb : s.browsers[w]? = some b) (hstate : state = .closed ∨ state = .failed)
    (hs : s'.browsers = s.browsers.set w { b with state := state }) (key : String) (j : Nat) :
    s'.LatestBrowser key j ↔ j ≠ w ∧ s.LatestBrowser key j := by
  unfold LatestBrowser
  rw [hs]
  have hgone : ({ b with state := state } : BridgeBrowser).connected = false := by
    rcases hstate with rfl | rfl <;> rfl
  have hother : ∀ {i : Nat} {c : BridgeBrowser}, i ≠ w → s.browsers[i]? = some c →
      (s.browsers.set w { b with state := state })[i]? = some c := fun hi hc =>
    (List.getElem?_set_ne (Ne.symm hi)).trans hc
  have hself : (s.browsers.set w { b with state := state })[w]? =
      some { b with state := state } := List.getElem?_set_at hb
  constructor
  · rintro ⟨c, hc, hkey, hconn, hlast⟩
    rcases List.getElem?_set_cases hc with ⟨-, rfl⟩ | ⟨hj, hc⟩
    · rw [hgone] at hconn
      cases hconn
    · refine ⟨hj, c, hc, hkey, hconn, fun i d hi hd => ?_⟩
      by_cases hiw : i = w
      · subst hiw
        rw [hb] at hd
        cases hd
        have hne := hlast i { b with state := state } hi hself
        exact hne
      · exact hlast i d hi (hother hiw hd)
  · rintro ⟨hj, c, hc, hkey, hconn, hlast⟩
    refine ⟨c, hother hj hc, hkey, hconn, fun i d hi hd => ?_⟩
    rcases List.getElem?_set_cases hd with ⟨rfl, rfl⟩ | ⟨-, hd⟩
    · exact hlast i b hi hb
    · exact hlast i d hi hd

/-! ## Steps -/

structure Inv (s : BrowserBridge) : Prop where
  sound : s.Sound
  paired : s.Paired

theorem sound_push (h : s.Sound) {b : BridgeBrowser} {p : Pair} (hkey : b.key ≠ "")
    (hp : s.objects[b.pair]? = some (b.key, p)) :
    Sound { s with browsers := s.browsers ++ [b] } := by
  have hold : ∀ {w : Nat} {c : BridgeBrowser}, s.browsers[w]? = some c →
      (s.browsers ++ [b])[w]? = some c := fun hc =>
    List.getElem?_concat_left hc
  refine ⟨h.found, h.dead, fun w c hc => ?_, fun id key p w hp hw => ?_⟩
  · rcases List.getElem?_concat_cases hc with ⟨-, hc⟩ | ⟨-, rfl⟩
    · exact h.captured w c hc
    · exact ⟨hkey, p, hp⟩
  · obtain ⟨c, hc, hpair⟩ := h.holder id key p w hp hw
    exact ⟨c, hold hc, hpair⟩

theorem sound_setState (h : s.Sound) {w : Nat} {b : BridgeBrowser} (hb : s.browsers[w]? = some b)
    (state : SocketState) : (s.setState w b state).Sound := by
  refine ⟨h.found, h.dead, fun j c hc => ?_, fun id key p j hp hj => ?_⟩
  · rcases List.getElem?_set_cases hc with ⟨-, rfl⟩ | ⟨-, hc⟩
    · exact h.captured w b hb
    · exact h.captured j c hc
  · obtain ⟨c, hc, hpair⟩ := h.holder id key p j hp hj
    by_cases hjw : j = w
    · subst hjw
      cases hb.symm.trans hc
      exact ⟨_, List.getElem?_set_at hb, hpair⟩
    · exact ⟨c, (List.getElem?_set_ne (Ne.symm hjw)).trans hc, hpair⟩

/-- What an event does to the pairs: the pair of one key is now `p`, and the messages that were
    sent are no audio. -/
structure Becomes (s s' : BrowserBridge) (key : String) (p : Option Pair) : Prop where
  sound : s'.Sound
  current : ∀ key', s'.current key' = if key' = key then p else s.current key'
  sent : ∃ extra, s'.sent = s.sent ++ extra ∧
    ∀ x ∈ extra, ∀ (k : Nat) (c : Option Nat), x.2 ≠ .audio k c

namespace Becomes

variable {p : Option Pair}

theorem session_eq (h : Becomes s s' key p) (key' : String) :
    s'.session key' = if key' = key then p.bind Pair.session else s.session key' := by
  rw [session, h.current]
  split <;> rfl

theorem attached_eq (h : Becomes s s' key p) (key' : String) :
    s'.attached key' = if key' = key then p.bind Pair.browser else s.attached key' := by
  rw [attached, h.current]
  split <;> rfl

theorem audio (h : Becomes s s' key p) (hs : s.Paired) :
    ∀ (w k : Nat) (c : Option Nat), (w, .audio k c) ∈ s'.sent → c = some k := by
  obtain ⟨extra, hsent, hextra⟩ := h.sent
  intro w k c hmem
  rw [hsent] at hmem
  rcases List.mem_append.mp hmem with hmem | hmem
  · exact hs.audio w k c hmem
  · exact absurd rfl (hextra _ hmem k c)

/-- A message at the end of an event. -/
theorem send (h : Becomes s s' key p) (browser : Option Nat) {m : BridgeMessage}
    (hm : ∀ k c, m ≠ .audio k c) : Becomes s (s'.send browser m) key p := by
  obtain ⟨extra', heq, hextra'⟩ := send_spec s' browser m
  obtain ⟨extra, hsent, hextra⟩ := h.sent
  rw [heq]
  refine ⟨⟨h.sound.found, h.sound.dead, h.sound.captured, h.sound.holder⟩, h.current,
    extra ++ extra', ?_, fun x hx k c => ?_⟩
  · rw [hsent, List.append_assoc]
  · rcases List.mem_append.mp hx with hx | hx
    · exact hextra x hx k c
    · exact hextra' x hx ▸ hm k c

end Becomes

theorem send_sessions (browser : Option Nat) (m : BridgeMessage) :
    (s.send browser m).sessions = s.sessions := by
  obtain ⟨extra, heq, -⟩ := send_spec s browser m
  rw [heq]

theorem send_browsers (browser : Option Nat) (m : BridgeMessage) :
    (s.send browser m).browsers = s.browsers := by
  obtain ⟨extra, heq, -⟩ := send_spec s browser m
  rw [heq]

theorem onBrowser_spec (h : s.Sound) (hkey : key ≠ "") :
    Becomes s (s.onBrowser key) key
      (some { (s.current key).getD .fresh with browser := some s.browsers.length }) ∧
    (s.onBrowser key).sessions = s.sessions ∧
    ∃ b : BridgeBrowser, b.key = key ∧ b.state = .open ∧
      (s.onBrowser key).browsers = s.browsers ++ [b] := by
  obtain ⟨hid, hsound, hcur, hsessions, hbrowsers, hsent⟩ := pair_spec h key
  rw [onBrowser, if_neg hkey]
  generalize s.pair key = r at *
  obtain ⟨t, id⟩ := r
  dsimp only at *
  obtain ⟨p, hp, -⟩ := current_of_get? hsound hid
  let b : BridgeBrowser := { key := key, pair := id, state := .open }
  let f : Pair → Pair := fun p => { p with browser := some t.browsers.length }
  have hpush : Sound { t with browsers := t.browsers ++ [b] } := sound_push hsound hkey hp
  have hmoved : Becomes s (modifyPair { t with browsers := t.browsers ++ [b] } id f) key
      (some { (s.current key).getD .fresh with browser := some s.browsers.length }) := by
    refine ⟨hpush.modifyPair key f (fun _ _ _ _ => .inl hid) ?_ ?_, ?_, [], ?_, nofun⟩
    · intro q k hq
      cases (show t.objects[id]? = some (k, q) from hq).symm.trans hp
      rfl
    · rintro q w - hw
      cases hw
      exact ⟨b, by simp, rfl⟩
    · intro key'
      rw [current_modifyPair_key hpush hid f key']
      have hbase : ∀ k, current { t with browsers := t.browsers ++ [b] } k = t.current k :=
        fun _ => rfl
      rw [hbase, hbase, hcur, hcur, if_pos rfl, ← hbrowsers]
      split <;> rfl
    · exact hsent.trans (List.append_nil _).symm
  have hbro : (modifyPair { t with browsers := t.browsers ++ [b] } id f).browsers =
      s.browsers ++ [b] := congrArg (· ++ [b]) hbrowsers
  have hses : (modifyPair { t with browsers := t.browsers ++ [b] } id f).sessions =
      s.sessions := hsessions
  split
  · split
    · exact ⟨hmoved.send _ (by simp), (send_sessions ..).trans hses, b, rfl, rfl,
        (send_browsers ..).trans hbro⟩
    · exact ⟨hmoved, hses, b, rfl, rfl, hbro⟩
  · exact ⟨hmoved, hses, b, rfl, rfl, hbro⟩

theorem onStart_spec (h : s.Sound) (m : BridgeStart) :
    Becomes s (s.onStart m) (keyOf m) (some { (s.current (keyOf m)).getD .fresh with
      session := some s.sessions.length
      callerFrom := m.callerFrom.filter (· ≠ "")
      callId := m.callId }) ∧
    (s.onStart m).sessions =
      s.sessions ++ [{ bridgeKey := keyOf m, callId := m.callId, live := true }] ∧
    (s.onStart m).browsers = s.browsers := by
  obtain ⟨hid, hsound, hcur, hsessions, hbrowsers, hsent⟩ := pair_spec h (keyOf m)
  rw [onStart]
  generalize s.pair (keyOf m) = r at *
  obtain ⟨t, id⟩ := r
  dsimp only at *
  let x : BridgeSession := { bridgeKey := keyOf m, callId := m.callId, live := true }
  let f : Pair → Pair := fun p => { p with
    session := some t.sessions.length
    callerFrom := m.callerFrom.filter (· ≠ "")
    callId := m.callId }
  have hpush : Sound { t with sessions := t.sessions ++ [x] } :=
    ⟨hsound.found, hsound.dead, hsound.captured, hsound.holder⟩
  obtain ⟨p, hp, -⟩ := current_of_get? hsound hid
  have hmoved : Becomes s (modifyPair { t with sessions := t.sessions ++ [x] } id f) (keyOf m)
      (some { (s.current (keyOf m)).getD .fresh with
        session := some s.sessions.length
        callerFrom := m.callerFrom.filter (· ≠ "")
        callId := m.callId }) := by
    refine ⟨hpush.modifyPair (keyOf m) f (fun _ _ _ _ => .inl hid) ?_ ?_, ?_, [], ?_,
      nofun⟩
    · intro q k hq
      cases (show t.objects[id]? = some (k, q) from hq).symm.trans hp
      rfl
    · exact fun q w hq hw => hsound.holder id (keyOf m) q w hq hw
    · intro key'
      rw [current_modifyPair_key hpush hid f key']
      have hbase : ∀ k, current { t with sessions := t.sessions ++ [x] } k = t.current k :=
        fun _ => rfl
      rw [hbase, hbase, hcur, hcur, if_pos rfl, ← hsessions]
      split <;> rfl
    · exact hsent.trans (List.append_nil _).symm
  have hses : (modifyPair { t with sessions := t.sessions ++ [x] } id f).sessions =
      s.sessions ++ [x] := congrArg (· ++ [x]) hsessions
  exact ⟨hmoved.send _ (by simp), (send_sessions ..).trans hses,
    (send_browsers ..).trans hbrowsers⟩

/-- The pair, unless neither side is left. -/
def kept (p : Option Pair) : Option Pair :=
  p.filter fun p => ¬ (p.session = none ∧ p.browser = none)

theorem kept_session (p : Option Pair) : (kept p).bind Pair.session = p.bind Pair.session := by
  cases p with
  | none => rfl
  | some p =>
    by_cases hempty : p.session = none ∧ p.browser = none
    · simp [kept, Option.filter, hempty]
    · simp [kept, Option.filter, hempty]

theorem kept_browser (p : Option Pair) : (kept p).bind Pair.browser = p.bind Pair.browser := by
  cases p with
  | none => rfl
  | some p =>
    by_cases hempty : p.session = none ∧ p.browser = none
    · simp [kept, Option.filter, hempty]
    · simp [kept, Option.filter, hempty]

theorem kept_not_empty {p : Option Pair} {q : Pair} (h : kept p = some q) :
    ¬ (q.session = none ∧ q.browser = none) := by
  obtain ⟨-, hq⟩ := Option.filter_eq_some_iff.mp h
  exact of_decide_eq_true hq

theorem onStop_spec (h : s.Sound) (hkey : key ≠ "") (hid : s.pairs.get? key = some id) :
    Becomes s (s.onStop key) key (kept ((s.current key).map fun p =>
      { p with session := none, callerFrom := none, callId := none })) ∧
    (s.onStop key).sessions = s.sessions ∧ (s.onStop key).browsers = s.browsers := by
  obtain ⟨p, hp, -⟩ := current_of_get? h hid
  obtain ⟨extra, hsend, hextra⟩ := send_spec s ((s.current key).bind Pair.browser) .stop
  let f : Pair → Pair := fun p => { p with session := none, callerFrom := none, callId := none }
  let t : BrowserBridge := { s with sent := s.sent ++ extra }
  have ht : t.Sound := ⟨h.found, h.dead, h.captured, h.holder⟩
  have heq : s.onStop key = (t.modifyPair id f).cleanup key := by
    simp only [onStop, if_neg hkey, hid, hsend]
    rfl
  have hmodified : (t.modifyPair id f).Sound := by
    refine ht.modifyPair key f (fun _ _ _ _ => .inl hid) ?_ ?_
    · intro q k hq
      cases (show s.objects[id]? = some (k, q) from hq).symm.trans hp
      rfl
    · exact fun q w hq hw => h.holder id key q w hq hw
  obtain ⟨hsound, hcur, hses, hbro, hsent⟩ := cleanup_spec hmodified key
  have hstop : ∀ (k : Nat) (c : Option Nat), BridgeMessage.stop ≠ .audio k c := nofun
  rw [heq]
  refine ⟨⟨hsound, fun key' => ?_, extra, hsent, fun x hx k c => hextra x hx ▸ hstop k c⟩,
    hses, hbro⟩
  have hbase : ∀ k, t.current k = s.current k := fun _ => rfl
  rw [hcur, current_modifyPair_key ht hid, current_modifyPair_key ht hid, if_pos rfl, hbase,
    hbase]
  split <;> rfl

/-- What the end of a socket does, with a cleanup and without. -/
theorem detach_becomes (h : s.Sound) {w : Nat} {b : BridgeBrowser}
    (hb : s.browsers[w]? = some b) (state : SocketState) :
    Becomes s ((s.setState w b state).detach w b) b.key
      ((s.current b.key).map (Pair.without w)) ∧
    Becomes s (((s.setState w b state).detach w b).cleanup b.key) b.key
      (kept ((s.current b.key).map (Pair.without w))) := by
  have hset := sound_setState h hb state
  have hself : (s.setState w b state).browsers[w]? = some { b with state := state } :=
    List.getElem?_set_at hb
  obtain ⟨hdetached, hcur⟩ := detach_spec hset hself
  have hbase : ∀ k, (s.setState w b state).current k = s.current k := fun _ => rfl
  simp only [hbase] at hcur
  have hfirst : Becomes s ((s.setState w b state).detach w b) b.key
      ((s.current b.key).map (Pair.without w)) :=
    ⟨hdetached, hcur, [], (List.append_nil _).symm, nofun⟩
  obtain ⟨hsound, hcur', -, -, hsent⟩ := cleanup_spec hdetached b.key
  refine ⟨hfirst, hsound, fun key' => ?_, [], hsent.trans (List.append_nil _).symm, nofun⟩
  rw [show ((s.setState w b state).detach w b).cleanup b.key =
    ((s.setState w b state).detach w { b with state := state }).cleanup b.key from rfl, hcur',
    hcur, hcur, if_pos rfl]
  split <;> rfl

/-! ## The invariant -/

theorem inv_init : init.Inv where
  sound := sound_init
  paired := by
    refine ⟨fun key k => ⟨nofun, ?_⟩, fun key w => ⟨nofun, ?_⟩, nofun, nofun⟩
    · rintro ⟨x, hx, -⟩
      cases hx
    · rintro ⟨b, hb, -⟩
      cases hb

/-- Sessions that stay are as late as they were. -/
theorem latestSession_same (hs : s'.sessions = s.sessions) (key : String) (k : Nat) :
    s'.LatestSession key k ↔ s.LatestSession key k := by
  unfold LatestSession
  rw [hs]

theorem latestBrowser_same (hs : s'.browsers = s.browsers) (key : String) (w : Nat) :
    s'.LatestBrowser key w ↔ s.LatestBrowser key w := by
  unfold LatestBrowser
  rw [hs]

theorem inv_browser (h : s.Inv) (key : String) : (s.onBrowser key).Inv := by
  by_cases hkey : key = ""
  · rw [onBrowser, if_pos hkey]
    exact h
  obtain ⟨hb, hsessions, b, hbkey, hopen, hbrowsers⟩ := onBrowser_spec h.sound hkey
  have hconn : b.connected = true := by rw [BridgeBrowser.connected, hopen]; rfl
  refine ⟨hb.sound, fun key' k => ?_, fun key' w => ?_, hb.audio h.paired, ?_⟩
  · rw [hb.session_eq, latestSession_same hsessions, ← h.paired.session_iff]
    split
    · rename_i heq
      rw [heq, session]
      cases s.current key <;> rfl
    · rfl
  · rw [hb.attached_eq, latestBrowser_connect hconn hbrowsers, hbkey]
    split
    · rw [Option.bind_some, Option.some.injEq, eq_comm]
    · exact h.paired.browser_iff key' w
  · intro key' p hp hsession hbrowser
    rw [hb.current] at hp
    split at hp
    · cases hp
      cases hbrowser
    · obtain ⟨w, c, hc, hckey, hfailed⟩ := h.paired.removed key' p hp hsession hbrowser
      refine ⟨w, c, ?_, hckey, hfailed⟩
      rw [hbrowsers]
      exact List.getElem?_concat_left hc

theorem inv_start (h : s.Inv) (m : BridgeStart) : (s.onStart m).Inv := by
  obtain ⟨hb, hsessions, hbrowsers⟩ := onStart_spec h.sound m
  refine ⟨hb.sound, fun key' k => ?_, fun key' w => ?_, hb.audio h.paired, ?_⟩
  · rw [hb.session_eq, latestSession_start rfl hsessions]
    split
    · rw [Option.bind_some, Option.some.injEq, eq_comm]
    · exact h.paired.session_iff key' k
  · rw [hb.attached_eq, latestBrowser_same hbrowsers, ← h.paired.browser_iff]
    split
    · rename_i heq
      rw [heq, attached]
      cases s.current (keyOf m) <;> rfl
    · rfl
  · intro key' p hp hsession hbrowser
    rw [hb.current] at hp
    split at hp
    · cases hp
      cases hsession
    · rw [hbrowsers]
      exact h.paired.removed key' p hp hsession hbrowser

theorem stop_cases {k : Nat} (hs : step s (.onStop k) = some s') :
    ∃ x, s.sessions[k]? = some x ∧ x.live = true ∧
      s' = { s with sessions := s.sessions.set k { x with live := false } }.onStop
        x.bridgeKey := by
  simp only [step] at hs
  split at hs
  · rename_i x hx
    split at hs
    · rename_i hlive
      cases hs
      exact ⟨x, hx, hlive, rfl⟩
    · cases hs
  · cases hs

theorem sound_sessions (h : s.Sound) (l : List BridgeSession) :
    Sound { s with sessions := l } := ⟨h.found, h.dead, h.captured, h.holder⟩

/-- A session that is the only live one of its key takes the right one away. -/
theorem inv_stop {k : Nat} (h : s.Inv) (halone : s.StopsAlone k)
    (hs : step s (.onStop k) = some s') : s'.Inv := by
  obtain ⟨x, hx, hlive, rfl⟩ := stop_cases hs
  have halone := halone x hx hlive
  let t : BrowserBridge := { s with sessions := s.sessions.set k { x with live := false } }
  have ht : t.Sound := sound_sessions h.sound _
  split at halone
  · rename_i hkey
    have heq : t.onStop x.bridgeKey = t := if_pos hkey
    show (t.onStop x.bridgeKey).Inv
    rw [heq]
    refine ⟨ht, fun key' j => ?_, h.paired.browser_iff, h.paired.audio, h.paired.removed⟩
    rw [latestSession_stop_earlier hx hlive (hkey.symm ▸ halone) rfl]
    exact h.paired.session_iff key' j
  · rename_i hkey
    -- the pair has this session, so the map has the pair
    have hlatest : s.LatestSession x.bridgeKey k := by
      refine ⟨x, hx, rfl, hlive, fun j y hj hy hykey => ?_⟩
      by_contra hy'
      have := halone j y hy hykey (by simpa using hy')
      omega
    have hpair := (h.paired.session_iff _ _).mpr hlatest
    obtain ⟨id, hid⟩ : ∃ id, s.pairs.get? x.bridgeKey = some id := by
      refine Option.ne_none_iff_exists'.mp fun hnone => ?_
      rw [session, current_of_get?_none hnone] at hpair
      cases hpair
    obtain ⟨hb, hsessions, hbrowsers⟩ := onStop_spec ht hkey hid
    refine ⟨hb.sound, fun key' j => ?_, fun key' w => ?_, ?_, ?_⟩
    · rw [hb.session_eq, latestSession_stop hx halone hsessions]
      split
      · rename_i heq
        rw [kept_session]
        refine iff_of_false ?_ fun hf => hf.1 heq
        cases t.current x.bridgeKey <;> exact nofun
      · rename_i hne
        exact (h.paired.session_iff key' j).trans (and_iff_right hne).symm
    · rw [hb.attached_eq, latestBrowser_same hbrowsers]
      show _ ↔ s.LatestBrowser key' w
      rw [← h.paired.browser_iff]
      split
      · rename_i heq
        rw [kept_browser, heq, attached]
        show _ ↔ (t.current x.bridgeKey).bind Pair.browser = some w
        cases t.current x.bridgeKey <;> rfl
      · rfl
    · obtain ⟨extra, hsent, hextra⟩ := hb.sent
      intro w j c hmem
      rw [hsent] at hmem
      rcases List.mem_append.mp hmem with hmem | hmem
      · exact h.paired.audio w j c hmem
      · exact absurd rfl (hextra _ hmem j c)
    · intro key' p hp hsession hbrowser
      rw [hb.current] at hp
      split at hp
      · exact absurd ⟨hsession, hbrowser⟩ (kept_not_empty hp)
      · rw [hbrowsers]
        exact h.paired.removed key' p hp hsession hbrowser

/-- The end of a socket detaches that socket and no other. -/
theorem gone_attached {w : Nat} {b : BridgeBrowser} (h : s.Inv) (hb : s.browsers[w]? = some b)
    (key : String) (j : Nat) :
    (if key = b.key then ((s.current b.key).map (Pair.without w)).bind Pair.browser
      else s.attached key) = some j ↔ j ≠ w ∧ s.LatestBrowser key j := by
  rw [← h.paired.browser_iff]
  split
  · rename_i heq
    rw [heq, attached]
    cases hcur : s.current b.key with
    | none => simp
    | some p =>
      simp only [Option.map_some, Option.bind_some, Pair.without]
      split
      · rename_i hw
        rw [hw]
        refine iff_of_false nofun ?_
        rintro ⟨hne, hj⟩
        exact hne (Option.some.inj hj).symm
      · rename_i hw
        refine ⟨fun hj => ⟨?_, hj⟩, And.right⟩
        rintro rfl
        exact hw hj
  · rename_i hne
    refine ⟨fun hj => ⟨?_, hj⟩, And.right⟩
    rintro rfl
    -- a browser is attached under its own key
    obtain ⟨c, hc, hckey, -⟩ := (h.paired.browser_iff key j).mp hj
    cases hb.symm.trans hc
    exact hne hckey.symm

theorem inv_close {w : Nat} (h : s.Inv) (hs : step s (.close w) = some s') : s'.Inv := by
  simp only [step, Option.bind_eq_some_iff] at hs
  obtain ⟨b, hb, hif⟩ := hs
  split at hif
  · cases hif
  · cases hif
    obtain ⟨-, hbec⟩ := detach_becomes h.sound hb .closed
    obtain ⟨-, -, hsessions, hbrowsers, -⟩ := cleanup_spec
      (detach_becomes h.sound hb .closed).1.sound b.key
    refine ⟨hbec.sound, fun key' k => ?_, fun key' j => ?_, hbec.audio h.paired, ?_⟩
    · rw [hbec.session_eq, latestSession_same hsessions]
      show _ ↔ s.LatestSession key' k
      rw [← h.paired.session_iff]
      split
      · rename_i heq
        rw [kept_session, heq, session]
        cases s.current b.key with
        | none => rfl
        | some p => simp [Pair.without_session]
      · rfl
    · rw [hbec.attached_eq, latestBrowser_gone hb (.inl rfl) hbrowsers, kept_browser]
      exact gone_attached h hb key' j
    · intro key' p hp hsession hbrowser
      rw [hbec.current] at hp
      split at hp
      · exact absurd ⟨hsession, hbrowser⟩ (kept_not_empty hp)
      · rename_i hne
        obtain ⟨j, c, hc, hckey, hfailed⟩ := h.paired.removed key' p hp hsession hbrowser
        refine ⟨j, c, ?_, hckey, hfailed⟩
        have hj : j ≠ w := by
          rintro rfl
          cases hb.symm.trans hc
          exact hne hckey.symm
        rw [hbrowsers]
        exact (List.getElem?_set_ne (Ne.symm hj)).trans hc

theorem inv_error {w : Nat} (h : s.Inv) (hs : step s (.error w) = some s') : s'.Inv := by
  simp only [step, Option.bind_eq_some_iff] at hs
  obtain ⟨b, hb, hif⟩ := hs
  split at hif
  · cases hif
  · cases hif
    obtain ⟨hbec, -⟩ := detach_becomes h.sound hb .failed
    have hbrowsers : ((s.setState w b .failed).detach w b).browsers =
        s.browsers.set w { b with state := .failed } := rfl
    have hsessions : ((s.setState w b .failed).detach w b).sessions = s.sessions := rfl
    refine ⟨hbec.sound, fun key' k => ?_, fun key' j => ?_, hbec.audio h.paired, ?_⟩
    · rw [hbec.session_eq, latestSession_same hsessions, ← h.paired.session_iff]
      split
      · rename_i heq
        rw [heq, session]
        cases s.current b.key with
        | none => rfl
        | some p => simp [Pair.without_session]
      · rfl
    · rw [hbec.attached_eq, latestBrowser_gone hb (.inr rfl) hbrowsers]
      exact gone_attached h hb key' j
    · intro key' p hp hsession hbrowser
      have hself : (s.browsers.set w { b with state := .failed })[w]? =
          some { b with state := .failed } := List.getElem?_set_at hb
      by_cases heq : key' = b.key
      · -- the `close` of this socket is still to come
        exact ⟨w, _, hself, heq.symm, rfl⟩
      · rw [hbec.current, if_neg heq] at hp
        obtain ⟨j, c, hc, hckey, hfailed⟩ := h.paired.removed key' p hp hsession hbrowser
        have hj : j ≠ w := by
          rintro rfl
          cases hb.symm.trans hc
          exact heq hckey.symm
        exact ⟨j, c, (List.getElem?_set_ne (Ne.symm hj)).trans hc, hckey, hfailed⟩

theorem inv_closing {w : Nat} (h : s.Inv) (hs : step s (.closing w) = some s') : s'.Inv := by
  simp only [step, Option.bind_eq_some_iff] at hs
  obtain ⟨b, hb, hif⟩ := hs
  split at hif
  · rename_i hopen
    cases hif
    have hself : (s.browsers.set w { b with state := .closing })[w]? =
        some { b with state := .closing } := List.getElem?_set_at hb
    refine ⟨sound_setState h.sound hb .closing, h.paired.session_iff, fun key j => ?_,
      h.paired.audio, fun key p hp hsession hbrowser => ?_⟩
    · refine (h.paired.browser_iff key j).trans ?_
      -- a socket that is about to close is still connected
      have hconn : b.connected = true := by rw [BridgeBrowser.connected, hopen]; rfl
      constructor
      · rintro ⟨c, hc, hkey, hcconn, hlast⟩
        have hlater : ∀ (i : Nat) (d : BridgeBrowser), j < i →
            (s.browsers.set w { b with state := .closing })[i]? = some d → d.key ≠ key := by
          intro i d hi hd
          rcases List.getElem?_set_cases hd with ⟨rfl, rfl⟩ | ⟨-, hd⟩
          · exact hlast i b hi hb
          · exact hlast i d hi hd
        by_cases hj : j = w
        · subst hj
          cases hb.symm.trans hc
          exact ⟨_, hself, hkey, rfl, hlater⟩
        · exact ⟨c, (List.getElem?_set_ne (Ne.symm hj)).trans hc, hkey, hcconn, hlater⟩
      · rintro ⟨c, hc, hkey, hcconn, hlast⟩
        have hlater : ∀ (i : Nat) (d : BridgeBrowser), j < i → s.browsers[i]? = some d →
            d.key ≠ key := by
          intro i d hi hd
          by_cases hiw : i = w
          · subst hiw
            cases hb.symm.trans hd
            have hne := hlast i _ hi hself
            exact hne
          · exact hlast i d hi ((List.getElem?_set_ne (Ne.symm hiw)).trans hd)
        rcases List.getElem?_set_cases hc with ⟨rfl, rfl⟩ | ⟨-, hc⟩
        · exact ⟨b, hb, hkey, hconn, hlater⟩
        · exact ⟨c, hc, hkey, hcconn, hlater⟩
    · obtain ⟨j, c, hc, hckey, hfailed⟩ := h.paired.removed key p hp hsession hbrowser
      have hj : j ≠ w := by
        rintro rfl
        cases hb.symm.trans hc
        rw [hopen] at hfailed
        cases hfailed
      exact ⟨j, c, (List.getElem?_set_ne (Ne.symm hj)).trans hc, hckey, hfailed⟩
  · cases hif

/-- The audio of an event, if it is sent, and the rest that stays. -/
theorem audio_cases {k : Nat} (hs : step s (.onAudio k) = some s') :
    ∃ x, s.sessions[k]? = some x ∧
      ((s.listener x.bridgeKey = none ∧ s' = s) ∨
        ∃ w, s.listener x.bridgeKey = some w ∧
          s' = { s with sent := s.sent ++ [(w, .audio k (s.session x.bridgeKey))] }) := by
  obtain ⟨x, hx, rfl⟩ := Option.map_eq_some_iff.mp hs
  refine ⟨x, hx, ?_⟩
  unfold onAudio
  cases s.listener x.bridgeKey with
  | none => exact .inl ⟨rfl, rfl⟩
  | some w => exact .inr ⟨w, rfl, rfl⟩

/-- Somebody listens to a key if its latest browser is open. -/
theorem listener_eq_some_iff (h : s.Inv) (key : String) (w : Nat) :
    s.listener key = some w ↔ s.LatestBrowser key w ∧ s.isOpen w = true := by
  unfold listener
  split
  · rename_i hkey
    refine iff_of_false nofun ?_
    rintro ⟨⟨b, hb, hbkey, -⟩, -⟩
    exact (h.sound.captured w b hb).1 (hbkey.trans hkey)
  · rw [Option.filter_eq_some_iff]
    exact and_congr_left fun _ => h.paired.browser_iff key w

theorem inv_audio {k : Nat} (h : s.Inv) (hlatest : s.PlaysLatest k)
    (hs : step s (.onAudio k) = some s') : s'.Inv := by
  obtain ⟨x, hx, ⟨-, rfl⟩ | ⟨w, hw, rfl⟩⟩ := audio_cases hs
  · exact h
  · refine ⟨⟨h.sound.found, h.sound.dead, h.sound.captured, h.sound.holder⟩,
      h.paired.session_iff, h.paired.browser_iff, fun v j c hmem => ?_, h.paired.removed⟩
    rcases List.mem_append.mp hmem with hmem | hmem
    · exact h.paired.audio v j c hmem
    · cases List.mem_singleton.mp hmem
      obtain ⟨hbrowser, hopen⟩ := (listener_eq_some_iff h _ _).mp hw
      exact (h.paired.session_iff _ _).mpr (hlatest x hx w hbrowser hopen)

/-- Speaking to a session leaves the pairs alone. -/
theorem inv_tell (h : s.Inv) (b : BridgeBrowser) (c : SessionCommand) : (s.tell b c).Inv := by
  unfold tell
  split
  · exact ⟨⟨h.sound.found, h.sound.dead, h.sound.captured, h.sound.holder⟩,
      h.paired.session_iff, h.paired.browser_iff, h.paired.audio, h.paired.removed⟩
  · exact h

theorem inv_step (h : s.Inv) (hrespects : s.RespectsPairs e) (hs : step s e = some s') :
    s'.Inv := by
  cases e with
  | onStart m => exact Option.some.inj hs ▸ inv_start h m
  | onAudio k => exact inv_audio h hrespects hs
  | onStop k => exact inv_stop h hrespects hs
  | browser key => exact Option.some.inj hs ▸ inv_browser h key
  | mic w =>
    obtain ⟨b, -, hif⟩ := Option.bind_eq_some_iff.mp hs
    split at hif
    · cases hif
    · exact Option.some.inj hif ▸ inv_tell h b .sendAudio
  | hangup w =>
    obtain ⟨b, -, hif⟩ := Option.bind_eq_some_iff.mp hs
    split at hif
    · cases hif
    · exact Option.some.inj hif ▸ inv_tell h b .close
  | closing w => exact inv_closing h hs
  | close w => exact inv_close h hs
  | error w => exact inv_error h hs

/-- Whoever stops, the pair of a key has no session after it. -/
theorem onStop_session (h : s.Sound) (hkey : key ≠ "") :
    (s.onStop key).session key = none ∧ (s.onStop key).sessions = s.sessions := by
  cases hid : s.pairs.get? key with
  | none =>
    have heq : s.onStop key = s := by simp only [onStop, if_neg hkey, hid]
    rw [heq, session, current_of_get?_none hid]
    exact ⟨rfl, rfl⟩
  | some id =>
    obtain ⟨hb, hsessions, -⟩ := onStop_spec h hkey hid
    refine ⟨?_, hsessions⟩
    rw [hb.session_eq, if_pos rfl, kept_session]
    cases s.current key <;> rfl

/-- What a stop leaves behind tells that the session was the only live one of its key. -/
theorem stopsAlone_of_paired {k : Nat} (h : s.Inv) (hs : step s (.onStop k) = some s')
    (hp : s'.Paired) : s.StopsAlone k := by
  intro x hx hlive
  obtain ⟨x', hx', -, rfl⟩ := stop_cases hs
  cases hx.symm.trans hx'
  let t : BrowserBridge := { s with sessions := s.sessions.set k { x with live := false } }
  have ht : t.Sound := sound_sessions h.sound _
  have hp : (t.onStop x.bridgeKey).Paired := hp
  split
  · rename_i hkey
    -- the pair keeps the session that has ended
    intro hlatest
    have heq : t.onStop x.bridgeKey = t := if_pos hkey
    rw [heq] at hp
    obtain ⟨y, hy, -, hylive, -⟩ :=
      (hp.session_iff "" k).mp ((h.paired.session_iff "" k).mpr hlatest)
    rw [List.getElem?_set_at hx] at hy
    cases hy
    cases hylive
  · rename_i hkey
    intro j y hy hykey hylive
    by_contra hj
    obtain ⟨hnone, hsessions⟩ := onStop_session ht hkey
    -- another live session would be the latest or come before it, but the pair has none
    have hleft : (t.onStop x.bridgeKey).sessions[j]? = some y := by
      rw [hsessions]
      exact (List.getElem?_set_ne (Ne.symm hj)).trans hy
    obtain ⟨i, hi⟩ := exists_latestSession hleft hylive
    have hsome := (hp.session_iff _ _).mpr hi
    rw [hykey, hnone] at hsome
    cases hsome

/-- The audio that was sent tells whose it was. -/
theorem playsLatest_of_paired {k : Nat} (h : s.Inv) (hs : step s (.onAudio k) = some s')
    (hp : s'.Paired) : s.PlaysLatest k := by
  intro x hx w hbrowser hopen
  have hlistener := (listener_eq_some_iff h _ _).mpr ⟨hbrowser, hopen⟩
  obtain ⟨x', hx', hcases⟩ := audio_cases hs
  cases hx.symm.trans hx'
  rcases hcases with ⟨hnone, -⟩ | ⟨v, -, rfl⟩
  · rw [hlistener] at hnone
    cases hnone
  · have hcurrent := hp.audio v k _ (List.mem_append_right _ (List.mem_singleton_self _))
    exact (h.paired.session_iff _ _).mp hcurrent

/-! ## Runs -/

/-- An event that happens respects the pairs. -/
def Respects (s : BrowserBridge) (e : BridgeEvent) : Prop :=
  (step s e).isSome = true → s.RespectsPairs e

theorem respects_of_paired (h : s.Inv) (hs : step s e = some s') (hp : s'.Paired) :
    s.Respects e := by
  intro _
  cases e with
  | onStop k => exact stopsAlone_of_paired h hs hp
  | onAudio k => exact playsLatest_of_paired h hs hp
  | onStart m => trivial
  | browser key => trivial
  | mic w => trivial
  | hangup w => trivial
  | closing w => trivial
  | close w => trivial
  | error w => trivial

/-- In every state of a run the pairs are right, if and only if each session stops as the only
    live one of its key and no other audio than that of the latest session comes while a browser
    listens. -/
theorem paired_throughout_iff (es : List BridgeEvent) :
    Throughout step Paired init es ↔ Meets step Respects init es := by
  refine Machine.throughout_iff_meets (P := fun _ _ => True) (fun _ h => h.paired) ?_ ?_ ?_
    inv_init (Machine.meets_of_mem fun _ _ => trivial)
  · exact fun s e s' h _ hr hs => inv_step h (hr (by rw [hs]; rfl)) hs
  · exact fun s e s' h _ hs hp => respects_of_paired h hs hp
  · intro s e hnone hsome
    rw [hnone] at hsome
    cases hsome

/-- The caller reconnects under the same bridge key, and the old stream stops after that. -/
def restart : List BridgeEvent :=
  let start (streamId : String) : BridgeStart :=
    { streamId := streamId, callId := some "CA1", bridgeId := some "room", callerFrom := none }
  [.browser "room", .onStart (start "MZ1"), .onStart (start "MZ2"), .onStop 0]

theorem not_paired_restart : ¬ Throughout step Paired init restart := by
  intro h
  obtain ⟨s, hs⟩ : ∃ s, Machine.run step init restart = some s := ⟨_, rfl⟩
  have hafter : s.session "room" = none ∧
      s.sessions[1]? = some { bridgeKey := "room", callId := some "CA1", live := true } := by
    cases hs
    exact ⟨by decide, by decide⟩
  obtain ⟨k, hk⟩ := exists_latestSession hafter.2 rfl
  have hpair := ((h.last hs).session_iff "room" k).mpr hk
  rw [hafter.1] at hpair
  cases hpair

end BrowserBridge

end CallNet.Streaming
