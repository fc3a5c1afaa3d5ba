import CallNet.Engine.SignalingServer
import CallNet.ForStd.Slots

/-!
# Who is online

The handlers of `close` and `error` delete the map entry of their client's extension, whichever
client it holds, and a message is dropped when the client of the entry is not open, whichever
other socket is.  So presence is right exactly as long as a socket goes only when no other socket
of its extension is connected, and the socket of the entry leaves `OPEN` only when no other one is
open (`presence_throughout_iff`).
-/

namespace CallNet

namespace SignalingServer

open Machine (Meets Throughout)

variable {s s' : SignalingServer} {e : SignalingEvent}

/-! ## The property and its condition -/

/-- Some socket of the extension is connected. -/
def Online (s : SignalingServer) (extension : String) : Prop :=
  ∃ (client : Nat) (c : WsClient), s.sockets[client]? = some c ∧ c.extension = extension ∧
    c.connected = true

/-- The client is an open socket of the extension. -/
def Opens (s : SignalingServer) (extension : String) (client : Nat) : Prop :=
  ∃ c, s.sockets[client]? = some c ∧ c.extension = extension ∧ c.state = .open

structure Presence (s : SignalingServer) : Prop where
  /-- The map has the extensions that are online. -/
  has : ∀ extension, s.clients.has extension ↔ s.Online extension
  /-- A message for an extension that has an open socket is sent. -/
  delivers : ∀ extension other, s.Opens extension other →
    ∃ client, s.receiver extension = some client
  /-- A message for an extension that is sent goes to an open socket of it. -/
  sends : ∀ extension client, s.receiver extension = some client → s.Opens extension client

/-- No other socket of the client's extension is connected. -/
def LastConnected (s : SignalingServer) (client : Nat) : Prop :=
  ∀ (c : WsClient), s.sockets[client]? = some c → ∀ (other : Nat) (d : WsClient),
    s.sockets[other]? = some d → d.extension = c.extension → d.connected = true → other = client

/-- If the entry of the client's extension is the client's, no other socket of it is open. -/
def LastOpen (s : SignalingServer) (client : Nat) : Prop :=
  ∀ (c : WsClient), s.sockets[client]? = some c → s.clients.get? c.extension = some client →
    ∀ other, s.Opens c.extension other → other = client

/-- A socket whose `close` or `error` is emitted is the last one of its extension, and one that
    begins to close while it is in the map is the last open one. -/
def GoesLast (s : SignalingServer) (e : SignalingEvent) : Prop :=
  (step s e).isSome = true →
    match e with
    | .close client | .error client => s.LastConnected client
    | .closing client => s.LastOpen client
    | .connection _ => True

/-! ## The invariant -/

/-- The map holds a connected socket of every extension that has one, and an open one of every
    extension that has an open one. -/
structure Tracks (s : SignalingServer) : Prop where
  holds : ∀ extension client, s.clients.get? extension = some client →
    ∃ c, s.sockets[client]? = some c ∧ c.extension = extension ∧ c.connected = true
  online : ∀ extension, s.Online extension → s.clients.has extension
  opens : ∀ extension client other, s.clients.get? extension = some client →
    s.Opens extension other → s.Opens extension client
  named : ∀ (client : Nat) (c : WsClient), s.sockets[client]? = some c → c.extension ≠ ""

theorem Opens.online {extension : String} {client : Nat} (h : s.Opens extension client) :
    s.Online extension := by
  obtain ⟨c, hc, hext, hopen⟩ := h
  exact ⟨client, c, hc, hext, by rw [WsClient.connected, hopen]; rfl⟩

theorem receiver_eq_some_iff (h : s.Tracks) {extension : String} {client : Nat} :
    s.receiver extension = some client ↔
      s.clients.get? extension = some client ∧ s.Opens extension client := by
  unfold receiver
  rw [Option.filter_eq_some_iff]
  refine and_congr_right fun hclient => ?_
  obtain ⟨c, hc, hext, -⟩ := h.holds extension client hclient
  rw [hc, Option.any_some, decide_eq_true_eq]
  constructor
  · exact fun hopen => ⟨c, hc, hext, hopen⟩
  · rintro ⟨d, hd, -, hopen⟩
    cases hc.symm.trans hd
    exact hopen

theorem Tracks.presence (h : s.Tracks) : s.Presence where
  has extension := by
    refine ⟨fun hhas => ?_, h.online extension⟩
    obtain ⟨client, hclient⟩ := Option.isSome_iff_exists.mp hhas
    obtain ⟨c, hc, hext, hconn⟩ := h.holds extension client hclient
    exact ⟨client, c, hc, hext, hconn⟩
  delivers extension other hother := by
    obtain ⟨client, hclient⟩ := Option.isSome_iff_exists.mp (h.online extension hother.online)
    have hopen := h.opens extension client other hclient hother
    exact ⟨client, (receiver_eq_some_iff h).mpr ⟨hclient, hopen⟩⟩
  sends extension client hrec := ((receiver_eq_some_iff h).mp hrec).2

theorem tracks_init : init.Tracks where
  holds _ _ h := by cases h
  online := by rintro extension ⟨client, c, hc, -⟩; cases hc
  opens _ _ _ h := by cases h
  named _ _ h := by cases h

/-- Under presence, the list says who is online. -/
theorem onlineUsers_spec (h : s.Presence) {users : List String} {extension u : String}
    {online : Bool} (hu : (u, online) ∈ s.onlineUsers users extension) :
    online = true ↔ s.Online u := by
  obtain ⟨v, -, hv⟩ := List.mem_map.mp hu
  cases hv
  exact h.has u

/-! ## Steps -/

theorem tracks_authenticate (h : s.Tracks) {claims : JwtClaims} (hext : claims.extension ≠ "") :
    (s.authenticateClient claims).Tracks := by
  let new : WsClient := { extension := claims.extension, state := .open }
  have hold : ∀ {client : Nat} {c : WsClient}, s.sockets[client]? = some c →
      (s.sockets ++ [new])[client]? = some c := fun hc => List.getElem?_concat_left hc
  have hnew : (s.sockets ++ [new])[s.sockets.length]? = some new := List.getElem?_concat_length
  refine ⟨fun extension client hclient => ?_, fun extension honline => ?_,
    fun extension client other hclient hother => ?_, fun client c hc => ?_⟩
  · rw [authenticateClient, OrdMap.get?_set] at hclient
    split at hclient
    · rename_i heq
      cases hclient
      exact ⟨_, hnew, heq.symm, rfl⟩
    · obtain ⟨c, hc, hrest⟩ := h.holds extension client hclient
      exact ⟨c, hold hc, hrest⟩
  · rw [OrdMap.has, authenticateClient, OrdMap.get?_set]
    split
    · rfl
    · rename_i hne
      obtain ⟨client, c, hc, hcext, hconn⟩ := honline
      rcases List.getElem?_concat_cases hc with ⟨-, hc⟩ | ⟨-, rfl⟩
      · exact h.online extension ⟨client, c, hc, hcext, hconn⟩
      · exact absurd hcext.symm hne
  · -- the new socket is open, and the others are where they were
    rw [authenticateClient, OrdMap.get?_set] at hclient
    split at hclient
    · rename_i heq
      cases hclient
      exact ⟨_, hnew, heq.symm, rfl⟩
    · rename_i hne
      obtain ⟨d, hd, hdext, hopen⟩ := hother
      rcases List.getElem?_concat_cases hd with ⟨-, hd⟩ | ⟨-, rfl⟩
      · obtain ⟨c, hc, hrest⟩ := h.opens extension client other hclient ⟨d, hd, hdext, hopen⟩
        exact ⟨c, hold hc, hrest⟩
      · exact absurd hdext.symm hne
  · rcases List.getElem?_concat_cases hc with ⟨-, hc⟩ | ⟨-, rfl⟩
    · exact h.named client c hc
    · exact hext

/-- What `closing` does. -/
theorem closing_cases {client : Nat} (hs : step s (.closing client) = some s') :
    ∃ c, s.sockets[client]? = some c ∧ c.state = .open ∧
      s' = { s with sockets := s.sockets.set client { c with state := .closing } } := by
  simp only [step] at hs
  split at hs
  · cases hs
  · rename_i c hc
    split at hs
    · rename_i hopen
      cases hs
      exact ⟨c, hc, hopen, rfl⟩
    · cases hs

/-- The sockets that are open after one began to close. -/
theorem opens_closing_iff {client other : Nat} {c : WsClient} {extension : String} :
    ({ s with sockets := s.sockets.set client { c with state := .closing } } :
      SignalingServer).Opens extension other ↔ other ≠ client ∧ s.Opens extension other := by
  constructor
  · rintro ⟨d, hd, hext, hopen⟩
    rcases List.getElem?_set_cases hd with ⟨-, rfl⟩ | ⟨hne, hd⟩
    · cases hopen
    · exact ⟨hne, d, hd, hext, hopen⟩
  · rintro ⟨hne, d, hd, hext, hopen⟩
    exact ⟨d, (List.getElem?_set_ne (Ne.symm hne)).trans hd, hext, hopen⟩

theorem tracks_closing (h : s.Tracks) {client : Nat} (hlast : s.LastOpen client)
    (hs : step s (.closing client) = some s') : s'.Tracks := by
  obtain ⟨c, hc, hopen, rfl⟩ := closing_cases hs
  have hself : (s.sockets.set client { c with state := .closing })[client]? =
      some { c with state := .closing } := List.getElem?_set_at hc
  refine ⟨fun extension k hk => ?_, ?_, fun extension k other hk hother => ?_, fun k d hd => ?_⟩
  · obtain ⟨d, hd, hext, hconn⟩ := h.holds extension k hk
    by_cases heq : k = client
    · subst heq
      cases hc.symm.trans hd
      exact ⟨_, hself, hext, rfl⟩
    · exact ⟨d, (List.getElem?_set_ne (Ne.symm heq)).trans hd, hext, hconn⟩
  · rintro extension ⟨k, d, hd, hext, hconn⟩
    rcases List.getElem?_set_cases hd with ⟨-, rfl⟩ | ⟨-, hd⟩
    · exact h.online extension ⟨client, c, hc, hext, by rw [WsClient.connected, hopen]; rfl⟩
    · exact h.online extension ⟨k, d, hd, hext, hconn⟩
  · rw [opens_closing_iff] at hother ⊢
    have hk' := h.opens extension k other hk hother.2
    refine ⟨fun heq => ?_, hk'⟩
    -- the entry is that of the closing socket, so no other one is open
    subst heq
    obtain ⟨d, hd, hext, -⟩ := hk'
    cases hc.symm.trans hd
    subst hext
    exact hother.1 (hlast c hc hk other hother.2)
  · rcases List.getElem?_set_cases hd with ⟨-, rfl⟩ | ⟨-, hd⟩
    · exact h.named client c hc
    · exact h.named k d hd

/-- After a socket began to close, messages are delivered only if it was the last open one or
    not in the map. -/
theorem lastOpen_of_presence {client : Nat} (hs : step s (.closing client) = some s')
    (hp : s'.Presence) : s.LastOpen client := by
  obtain ⟨c, hc, -, rfl⟩ := closing_cases hs
  intro c' hc' hentry other hother
  cases hc.symm.trans hc'
  by_contra hne
  obtain ⟨k, hk⟩ := hp.delivers c.extension other (opens_closing_iff.mpr ⟨hne, hother⟩)
  -- the entry is still that of the socket, which is open no more
  have hkept := (Option.filter_eq_some_iff.mp hk).1
  obtain rfl : client = k := Option.some.inj (hentry.symm.trans hkept)
  exact (opens_closing_iff.mp (hp.sends c.extension client hk)).1 rfl

/-- What `close` and `error` do. -/
theorem goes_cases {client : Nat} (he : e = .close client ∨ e = .error client)
    (hs : step s e = some s') :
    ∃ c state, s.sockets[client]? = some c ∧ (state = .closed ∨ state = .failed) ∧
      s' = s.forget client c state := by
  rcases he with rfl | rfl
  all_goals
    simp only [step] at hs
    split at hs
    · cases hs
    · rename_i c hc
      split at hs
      · cases hs
      · cases hs
        exact ⟨c, _, hc, by simp, rfl⟩

/-- A socket that is the last one of its extension takes the entry with it rightly. -/
theorem tracks_forget (h : s.Tracks) {client : Nat} {c : WsClient} {state : SocketState}
    (hc : s.sockets[client]? = some c) (hstate : state = .closed ∨ state = .failed)
    (hlast : s.LastConnected client) : (s.forget client c state).Tracks := by
  have hgone : ({ c with state := state } : WsClient).connected = false := by
    rcases hstate with rfl | rfl <;> rfl
  have hdelete : (s.forget client c state).clients = s.clients.delete c.extension :=
    if_pos (h.named client c hc)
  refine ⟨fun extension k hk => ?_, ?_, fun extension k other hk hother => ?_, fun k d hd => ?_⟩
  · rw [hdelete, OrdMap.get?_delete] at hk
    split at hk
    · cases hk
    · rename_i hne
      obtain ⟨d, hd, hext, hconn⟩ := h.holds extension k hk
      have hk' : k ≠ client := by
        rintro rfl
        cases hc.symm.trans hd
        exact hne hext.symm
      exact ⟨d, (List.getElem?_set_ne (Ne.symm hk')).trans hd, hext, hconn⟩
  · rintro extension ⟨k, d, hd, hext, hconn⟩
    rcases List.getElem?_set_cases hd with ⟨-, rfl⟩ | ⟨hk, hd⟩
    · rw [hgone] at hconn
      cases hconn
    · rw [OrdMap.has, hdelete, OrdMap.get?_delete]
      split
      · rename_i heq
        exact absurd (hlast c hc k d hd (hext.trans heq) hconn) hk
      · exact h.online extension ⟨k, d, hd, hext, hconn⟩
  · rw [hdelete, OrdMap.get?_delete] at hk
    split at hk
    · cases hk
    · rename_i hne
      obtain ⟨d, hd, hdext, hopen⟩ := hother
      rcases List.getElem?_set_cases hd with ⟨-, rfl⟩ | ⟨-, hd⟩
      · exact absurd hdext.symm hne
      · obtain ⟨d', hd', hext, hopen'⟩ := h.opens extension k other hk ⟨d, hd, hdext, hopen⟩
        have hk' : k ≠ client := by
          rintro rfl
          cases hc.symm.trans hd'
          exact hne hext.symm
        exact ⟨d', (List.getElem?_set_ne (Ne.symm hk')).trans hd', hext, hopen'⟩
  · rcases List.getElem?_set_cases hd with ⟨-, rfl⟩ | ⟨-, hd⟩
    · exact h.named client c hc
    · exact h.named k d hd

/-- After a socket went, presence holds only if no other socket of its extension is left. -/
theorem lastConnected_of_presence (h : s.Tracks) {client : Nat} {c : WsClient}
    {state : SocketState} (hc : s.sockets[client]? = some c)
    (hp : (s.forget client c state).Presence) : s.LastConnected client := by
  intro c' hc' other d hd hext hconn
  cases hc.symm.trans hc'
  by_contra hne
  have honline : (s.forget client c state).Online c.extension :=
    ⟨other, d, (List.getElem?_set_ne (Ne.symm hne)).trans hd, hext, hconn⟩
  have hhas := (hp.has c.extension).mpr honline
  rw [forget, if_pos (h.named client c hc), OrdMap.has, OrdMap.get?_delete_self] at hhas
  cases hhas

/-! ## Runs -/

theorem tracks_step (h : s.Tracks) (hlast : s.GoesLast e) (hs : step s e = some s') :
    s'.Tracks := by
  have hlast := hlast (by rw [hs]; rfl)
  cases e with
  | connection decoded =>
    simp only [step] at hs
    split at hs
    · cases hs
      exact h
    · rename_i claims hclaims
      cases hs
      have hgood := (Option.filter_eq_some_iff.mp hclaims).2
      exact tracks_authenticate h (of_decide_eq_true hgood).2
  | closing client => exact tracks_closing h hlast hs
  | close client =>
    obtain ⟨c, state, hc, hstate, rfl⟩ := goes_cases (.inl rfl) hs
    exact tracks_forget h hc hstate hlast
  | error client =>
    obtain ⟨c, state, hc, hstate, rfl⟩ := goes_cases (.inr rfl) hs
    exact tracks_forget h hc hstate hlast

theorem goesLast_of_presence (h : s.Tracks) (hs : step s e = some s') (hp : s'.Presence) :
    s.GoesLast e := by
  intro _
  cases e with
  | connection decoded => trivial
  | closing client => exact lastOpen_of_presence hs hp
  | close client =>
    obtain ⟨c, state, hc, -, rfl⟩ := goes_cases (.inl rfl) hs
    exact lastConnected_of_presence h hc hp
  | error client =>
    obtain ⟨c, state, hc, -, rfl⟩ := goes_cases (.inr rfl) hs
    exact lastConnected_of_presence h hc hp

/-- In every state of a run the map has the extensions with a connected socket, and the messages
    for an extension with an open socket go to one, if and only if a socket only goes as the last
    one of its extension, and only begins to close as the last open one or as one that is not in
    the map. -/
theorem presence_throughout_iff (es : List SignalingEvent) :
    Throughout step Presence init es ↔ Meets step GoesLast init es := by
  refine Machine.throughout_iff_meets (P := fun _ _ => True) (fun _ h => h.presence) ?_ ?_ ?_
    tracks_init (Machine.meets_of_mem fun _ _ => trivial)
  · exact fun s e s' h _ hlast hs => tracks_step h hlast hs
  · exact fun s e s' h _ hs hp => goesLast_of_presence h hs hp
  · intro s e hnone hsome
    rw [hnone] at hsome
    cases hsome

/-- Extension 100 reconnects, and its old socket closes later. -/
def reconnect : List SignalingEvent :=
  let claims : JwtClaims := { type := "access", extension := "100" }
  [.connection (some claims), .connection (some claims), .closing 0, .close 0]

theorem not_presence_reconnect : ¬ Throughout step Presence init reconnect := by
  intro h
  obtain ⟨s, hs⟩ : ∃ s, Machine.run step init reconnect = some s := ⟨_, rfl⟩
  have hafter : s.clients.has "100" = false ∧
      s.sockets[1]? = some { extension := "100", state := .open } := by
    cases hs
    exact ⟨by decide, by decide⟩
  have hhas := ((h.last hs).has "100").mpr ⟨1, _, hafter.2, rfl, rfl⟩
  rw [hafter.1] at hhas
  cases hhas

end SignalingServer

end CallNet
