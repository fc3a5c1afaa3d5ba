import Mathlib.Data.List.Basic

/-!
# Undo histories

An editor that keeps the latest `limit` snapshots for undo and redo, and the timeline of all its
edits that it stands for.

* `UndoHistory` is what the editor stores, `Timeline` the edits with their numbers.
* `Tracks` relates the two: the snapshots are those of the last edits that are done, and those
  of the edits that are undone; what is missing is more than `limit` edits old.
* `Tracks.edit`, `Tracks.undo` and `Tracks.redo` say that the operations keep the relation.
* `All` says something of every snapshot, and of what undo and redo bring back.
-/

/-- The snapshots to go back to, the latest last, and those to go forward to, the next first. -/
structure UndoHistory (γ : Type u) where
  past : List γ
  future : List γ

/-- The edits that are done, with their numbers and what was there before, and the edits that
    are undone, the next to redo first, with what was there after them. -/
structure Timeline (γ : Type u) where
  count : Nat
  done : List (Nat × γ)
  undone : List (Nat × γ)

namespace UndoHistory

variable {γ : Type u}

/-- A snapshot before an edit; redoing ends here. -/
def record (h : UndoHistory γ) (limit : Nat) (now : γ) : UndoHistory γ :=
  { past := (h.past ++ [now]).drop (h.past.length + 1 - limit), future := [] }

/-- One snapshot back. -/
def undo (h : UndoHistory γ) (limit : Nat) (now : γ) : UndoHistory γ :=
  { past := h.past.dropLast, future := (now :: h.future).take limit }

/-- One snapshot forward. -/
def redo (h : UndoHistory γ) (limit : Nat) (now : γ) : UndoHistory γ :=
  { past := (h.past ++ [now]).drop (h.past.length + 1 - limit), future := h.future.tail }

end UndoHistory

namespace Timeline

variable {γ : Type u}

def start : Timeline γ := ⟨0, [], []⟩

def edit (t : Timeline γ) (now : γ) : Timeline γ :=
  { count := t.count + 1, done := t.done ++ [(t.count + 1, now)], undone := [] }

def undo (t : Timeline γ) (now : γ) : Timeline γ :=
  match t.done.getLast? with
  | none => t
  | some (n, _) => { t with done := t.done.dropLast, undone := (n, now) :: t.undone }

def redo (t : Timeline γ) (now : γ) : Timeline γ :=
  match t.undone with
  | [] => t
  | (n, _) :: rest => { t with done := t.done ++ [(n, now)], undone := rest }

/-- The edits are numbered in their order. -/
structure Numbered (t : Timeline γ) : Prop where
  increasing : ((t.done ++ t.undone).map Prod.fst).Pairwise (· < ·)
  le_count : ∀ e ∈ t.done ++ t.undone, e.1 ≤ t.count

/-- The edit is among the last ones. -/
def Recent (t : Timeline γ) (limit n : Nat) : Prop := t.count < n + limit

instance (t : Timeline γ) (limit n : Nat) : Decidable (t.Recent limit n) :=
  inferInstanceAs (Decidable (_ < _))

theorem Numbered.start : (start : Timeline γ).Numbered := by
  constructor
  · exact List.Pairwise.nil
  · intro e he
    cases he

theorem Numbered.edit {t : Timeline γ} (h : t.Numbered) (now : γ) : (t.edit now).Numbered := by
  have hdone : ∀ e ∈ t.done, e.1 ≤ t.count := fun e he =>
    h.le_count e (List.mem_append_left _ he)
  have hincreasing := h.increasing
  rw [List.map_append, List.pairwise_append] at hincreasing
  constructor
  · show ((t.done ++ [(t.count + 1, now)] ++ []).map Prod.fst).Pairwise (· < ·)
    rw [List.append_nil, List.map_append, List.pairwise_append]
    refine ⟨hincreasing.1, List.pairwise_singleton _ _, fun n hn m hm => ?_⟩
    obtain ⟨e, he, rfl⟩ := List.mem_map.mp hn
    have hm' : m = t.count + 1 := List.mem_singleton.mp hm
    have hle := hdone e he
    omega
  · intro e he
    show e.1 ≤ t.count + 1
    rw [show (t.edit now).undone = [] from rfl, List.append_nil] at he
    rcases List.mem_append.mp he with hold | hnew
    · exact Nat.le_succ_of_le (hdone e hold)
    · obtain rfl := List.mem_singleton.mp hnew
      exact Nat.le_refl _

/-- Only the place of an edit changes. -/
theorem Numbered.of_map_eq {t t' : Timeline γ} (h : t.Numbered) (hcount : t'.count = t.count)
    (hmap : (t'.done ++ t'.undone).map Prod.fst = (t.done ++ t.undone).map Prod.fst) :
    t'.Numbered := by
  refine ⟨by rw [hmap]; exact h.increasing, fun e he => ?_⟩
  have hmem : e.1 ∈ (t.done ++ t.undone).map Prod.fst := hmap ▸ List.mem_map_of_mem he
  obtain ⟨e', he', heq⟩ := List.mem_map.mp hmem
  rw [← heq, hcount]
  exact h.le_count e' he'

theorem Numbered.undo {t : Timeline γ} (h : t.Numbered) (now : γ) : (t.undo now).Numbered := by
  unfold Timeline.undo
  split
  · exact h
  · rename_i n g hlast
    refine h.of_map_eq rfl ?_
    obtain ⟨before, hbefore⟩ := List.getLast?_eq_some_iff.mp hlast
    simp [hbefore]

theorem Numbered.redo {t : Timeline γ} (h : t.Numbered) (now : γ) : (t.redo now).Numbered := by
  unfold Timeline.redo
  split
  · exact h
  · rename_i n g rest hundone
    refine h.of_map_eq rfl ?_
    simp [hundone]

/-- Numbers that increase leave room below the last of them. -/
theorem add_length_le {n bound : Nat} {ns : List Nat} (h : (n :: ns).Pairwise (· < ·))
    (hbound : ∀ m ∈ n :: ns, m ≤ bound) : n + ns.length ≤ bound := by
  induction ns generalizing n with
  | nil => exact hbound n List.mem_cons_self
  | cons m ns ih =>
    obtain ⟨hn, hrest⟩ := List.pairwise_cons.mp h
    have hlt := hn m List.mem_cons_self
    have hle := ih hrest fun k hk => hbound k (List.mem_cons_of_mem _ hk)
    rw [List.length_cons]
    omega

end Timeline

namespace UndoHistory

variable {γ : Type u} {limit : Nat} {h : UndoHistory γ} {t : Timeline γ} {now : γ}

/-- The snapshots are those of the timeline, as far as they are kept. -/
structure Tracks (limit : Nat) (h : UndoHistory γ) (t : Timeline γ) : Prop where
  numbered : t.Numbered
  past : ∃ lost kept, t.done = lost ++ kept ∧ kept.map Prod.snd = h.past ∧
    ∀ e ∈ lost, ¬t.Recent limit e.1
  future : t.undone.map Prod.snd = h.future
  size : h.past.length + h.future.length ≤ limit

theorem Tracks.start (limit : Nat) : Tracks limit (⟨[], []⟩ : UndoHistory γ) .start :=
  ⟨.start, ⟨[], [], rfl, rfl, fun _ he => nomatch he⟩, rfl, Nat.zero_le _⟩

theorem Tracks.edit (ht : Tracks limit h t) (now : γ) :
    Tracks limit (h.record limit now) (t.edit now) := by
  obtain ⟨lost, kept, hdone, hkept, hlost⟩ := ht.past
  have hlength : kept.length = h.past.length := by rw [← hkept, List.length_map]
  have hsize := ht.size
  have hnumbered := ht.numbered.edit now
  have hall : (t.edit now).done = lost ++ (kept ++ [(t.count + 1, now)]) := by
    show t.done ++ [(t.count + 1, now)] = _
    rw [hdone, List.append_assoc]
  refine ⟨hnumbered, ⟨lost ++ (kept ++ [(t.count + 1, now)]).take (h.past.length + 1 - limit),
    (kept ++ [(t.count + 1, now)]).drop (h.past.length + 1 - limit), ?_, ?_, fun e he => ?_⟩,
    rfl, ?_⟩
  · rw [hall, List.append_assoc, List.take_append_drop]
  · rw [List.map_drop, List.map_append, hkept]
    rfl
  · rcases List.mem_append.mp he with hold | hdropped
    · have hout := hlost e hold
      unfold Timeline.Recent at hout ⊢
      show ¬t.count + 1 < e.1 + limit
      omega
    · -- a snapshot is dropped only when `limit` later ones are kept
      have hfull : h.past.length = limit := by
        by_contra hroom
        rw [show h.past.length + 1 - limit = 0 by omega, List.take_zero] at hdropped
        cases hdropped
      rw [hfull, Nat.add_sub_cancel_left] at hdropped
      obtain ⟨first, rest, hfirst⟩ : ∃ first rest, kept ++ [(t.count + 1, now)] = first :: rest :=
        List.exists_cons_of_ne_nil (by simp)
      rw [hfirst] at hdropped hall
      obtain rfl : e = first := List.mem_singleton.mp hdropped
      have hrest : rest.length = limit := by
        have hcount := congrArg List.length hfirst
        rw [List.length_append, List.length_singleton, List.length_cons] at hcount
        omega
      have hundone : (t.edit now).undone = [] := rfl
      have hincreasing := hnumbered.increasing
      rw [hall, hundone, List.append_nil, List.map_append, List.pairwise_append] at hincreasing
      have hbound : e.1 + (rest.map Prod.fst).length ≤ t.count + 1 := by
        refine Timeline.add_length_le hincreasing.2.1 fun n hn => ?_
        have hmem : n ∈ (e :: rest).map Prod.fst := hn
        obtain ⟨e', he', rfl⟩ := List.mem_map.mp hmem
        apply hnumbered.le_count e'
        rw [hall]
        exact List.mem_append_left _ (List.mem_append_right _ he')
      rw [List.length_map, hrest] at hbound
      exact Nat.not_lt.mpr hbound
  · show ((h.past ++ [now]).drop _).length + 0 ≤ limit
    rw [List.length_drop, List.length_append, List.length_singleton]
    omega

theorem Tracks.undo (ht : Tracks limit h t) (now : γ) (hpast : h.past ≠ []) :
    Tracks limit (h.undo limit now) (t.undo now) := by
  obtain ⟨lost, kept, hdone, hkept, hlost⟩ := ht.past
  have hsize := ht.size
  obtain ⟨before, last, rfl⟩ : ∃ before last, kept = before ++ [last] := by
    have hne : kept ≠ [] := fun hnil => hpast (by rw [← hkept, hnil]; rfl)
    exact ⟨kept.dropLast, kept.getLast hne, (List.dropLast_append_getLast hne).symm⟩
  have hlast : t.done.getLast? = some last := by
    rw [hdone, ← List.append_assoc, List.getLast?_concat]
  have hundo : t.undo now =
      { t with done := lost ++ before, undone := (last.1, now) :: t.undone } := by
    unfold Timeline.undo
    rw [hlast]
    show ({ t with done := t.done.dropLast, undone := (last.1, now) :: t.undone } : Timeline γ) = _
    rw [hdone, ← List.append_assoc, List.dropLast_concat]
  have hpastLength : h.past.length = before.length + 1 := by
    rw [← hkept, List.length_map, List.length_append, List.length_singleton]
  refine ⟨ht.numbered.undo now, ?_, ?_, ?_⟩
  · rw [hundo]
    refine ⟨lost, before, rfl, ?_, hlost⟩
    show before.map Prod.snd = h.past.dropLast
    rw [← hkept, List.map_append, List.map_singleton, List.dropLast_concat]
  · rw [hundo]
    show now :: t.undone.map Prod.snd = (now :: h.future).take limit
    -- there is room for the snapshot that was just taken back
    rw [ht.future, List.take_of_length_le]
    rw [List.length_cons]
    omega
  · show h.past.dropLast.length + ((now :: h.future).take limit).length ≤ limit
    rw [List.length_dropLast, List.length_take, List.length_cons]
    omega

theorem Tracks.redo (ht : Tracks limit h t) (now : γ) (hfuture : h.future ≠ []) :
    Tracks limit (h.redo limit now) (t.redo now) := by
  obtain ⟨lost, kept, hdone, hkept, hlost⟩ := ht.past
  have hsize := ht.size
  obtain ⟨next, rest, hundone⟩ : ∃ next rest, t.undone = next :: rest := by
    apply List.exists_cons_of_ne_nil
    intro hnil
    exact hfuture (by rw [← ht.future, hnil]; rfl)
  have hredo : t.redo now =
      { t with done := t.done ++ [(next.1, now)], undone := rest } := by
    unfold Timeline.redo
    rw [hundone]
  have hfutureEq : h.future = next.2 :: rest.map Prod.snd := by
    rw [← ht.future, hundone]
    rfl
  have hroom : h.past.length + 1 - limit = 0 := by
    rw [hfutureEq, List.length_cons] at hsize
    omega
  refine ⟨ht.numbered.redo now, ?_, ?_, ?_⟩
  · rw [hredo]
    refine ⟨lost, kept ++ [(next.1, now)], ?_, ?_, hlost⟩
    · show t.done ++ [(next.1, now)] = _
      rw [hdone, List.append_assoc]
    · show (kept ++ [(next.1, now)]).map Prod.snd = (h.past ++ [now]).drop _
      rw [hroom, List.drop_zero, List.map_append, hkept]
      rfl
  · rw [hredo]
    show rest.map Prod.snd = h.future.tail
    rw [hfutureEq, List.tail_cons]
  · show ((h.past ++ [now]).drop _).length + h.future.tail.length ≤ limit
    rw [hroom, List.drop_zero, List.length_append, List.length_singleton]
    rw [hfutureEq, List.length_cons] at hsize
    rw [hfutureEq, List.tail_cons]
    omega

/-! ## What undo and redo find -/

/-- The snapshot to go back to is that of the last edit done. -/
theorem Tracks.getLast?_done (ht : Tracks limit h t) {g : γ} (hg : h.past.getLast? = some g) :
    ∃ n, t.done.getLast? = some (n, g) := by
  obtain ⟨lost, kept, hdone, hkept, _⟩ := ht.past
  rw [← hkept, List.getLast?_map] at hg
  obtain ⟨last, hlast, rfl⟩ := Option.map_eq_some_iff.mp hg
  refine ⟨last.1, ?_⟩
  rw [hdone, List.getLast?_append, hlast]
  rfl

/-- A recent edit has a snapshot. -/
theorem Tracks.getLast?_past (ht : Tracks limit h t) {n : Nat} {g : γ}
    (hlast : t.done.getLast? = some (n, g)) (hrecent : t.Recent limit n) :
    h.past.getLast? = some g := by
  obtain ⟨lost, kept, hdone, hkept, hlost⟩ := ht.past
  rw [hdone, List.getLast?_append] at hlast
  rw [← hkept, List.getLast?_map]
  cases hend : kept.getLast? with
  | some last =>
    rw [hend] at hlast
    obtain rfl := Option.some.inj hlast
    rfl
  | none =>
    rw [hend, Option.none_or] at hlast
    exact absurd hrecent (hlost _ (List.mem_of_getLast? hlast))

/-! ## What every snapshot has -/

/-- Every snapshot has the property. -/
structure All (P : γ → Prop) (h : UndoHistory γ) : Prop where
  past : ∀ g ∈ h.past, P g
  future : ∀ g ∈ h.future, P g

variable {P : γ → Prop}

theorem All.start : All P (⟨[], []⟩ : UndoHistory γ) :=
  ⟨fun _ hg => (nomatch hg), fun _ hg => (nomatch hg)⟩

theorem All.drop_concat (ha : All P h) (hnow : P now) (n : Nat) :
    ∀ g ∈ (h.past ++ [now]).drop n, P g := by
  intro g hg
  rcases List.mem_append.mp (List.mem_of_mem_drop hg) with hpast | hlast
  · exact ha.past g hpast
  · exact List.mem_singleton.mp hlast ▸ hnow

theorem All.record (ha : All P h) (hnow : P now) : All P (h.record limit now) :=
  ⟨ha.drop_concat hnow _, fun _ hg => nomatch hg⟩

theorem All.undo (ha : All P h) (hnow : P now) : All P (h.undo limit now) := by
  constructor
  · intro g hg
    exact ha.past g (List.dropLast_subset _ hg)
  · intro g hg
    rcases List.mem_cons.mp (List.mem_of_mem_take hg) with rfl | hfuture
    · exact hnow
    · exact ha.future g hfuture

theorem All.redo (ha : All P h) (hnow : P now) : All P (h.redo limit now) := by
  constructor
  · exact ha.drop_concat hnow _
  · intro g hg
    exact ha.future g (List.mem_of_mem_tail hg)

end UndoHistory
