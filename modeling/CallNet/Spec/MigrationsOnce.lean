import CallNet.Api.SqlMigrations
import CallNet.ForStd.Slots

/-!
# Every migration once

A boot asks the ledger for a file before it opens the file's transaction, and the row that the
transaction writes gives way to one that is there.  So two boots that both find a file
unrecorded both apply it.  `appliedOnce_throughout_iff` says that nothing else goes wrong: the
files are applied once, in order and together with their ledger rows as long as every commit
finds its file still unrecorded.
-/

namespace CallNet.SqlMigrations

open Machine (Meets Throughout)

variable {r : Release} {s s' : State} {e : Event}

/-! ## The property and its condition -/

/-- The names of the files that took effect, each time they did. -/
def Database.applied (db : Database) : List String := db.effects.map Prod.fst

structure AppliedOnce (r : Release) (s : State) : Prop where
  /-- No file took effect twice, and none after a later one. -/
  ordered : s.db.applied.Pairwise (· < ·)
  /-- What took effect are the statements of a file. -/
  whole : ∀ x ∈ s.db.effects, ∃ f ∈ r.files, x = (f.name, splitStatements f.content)
  /-- The ledger has the rows of the files that took effect. -/
  ledger : ∀ name checksum, s.db.row name = some checksum ↔
    name ∈ s.db.applied ∧ ∃ f ∈ r.files, f.name = name ∧ checksum = r.sha256Hex f.content
  /-- A boot that came to its end leaves no file out. -/
  finished : .done ∈ s.boots → ∀ f ∈ r.files, f.name ∈ s.db.applied

/-- A transaction that commits finds its file unrecorded. -/
def CommitsUnrecorded (r : Release) (s : State) : Event → Prop
  | .commit k => ∀ (file : Nat) (executed : List (List Char)) (inserted : Bool) (f : DirEntry),
    s.boots[k]? = some (.recorded file executed inserted) → r.files[file]? = some f →
      s.db.row f.name = none
  | _ => True

/-! ## The files of a release -/

theorem Dir.files_pairwise (dir : Dir) : dir.files.Pairwise fun a b => a.name < b.name := by
  have : Std.Total fun a b : DirEntry => a.name ≤ b.name := ⟨fun a b => le_total a.name b.name⟩
  have : IsTrans DirEntry fun a b => a.name ≤ b.name := ⟨fun _ _ _ => le_trans⟩
  have hsorted := List.pairwise_insertionSort (fun a b : DirEntry => a.name ≤ b.name)
    (dir.entries.filter isSqlFile)
  have hperm := List.perm_insertionSort (fun a b : DirEntry => a.name ≤ b.name)
    (dir.entries.filter isSqlFile)
  have hdistinct : dir.files.Pairwise fun a b => a.name ≠ b.name := by
    refine (hperm.pairwise_iff fun h => h.symm).mpr ?_
    exact (List.pairwise_map.mp dir.distinct).filter _
  exact (hsorted.and hdistinct).imp fun h => lt_of_le_of_ne h.1 h.2

theorem Release.files_pairwise (r : Release) : r.files.Pairwise fun a b => a.name < b.name := by
  unfold Release.files
  cases r.dir with
  | none => exact .nil
  | some dir => exact dir.files_pairwise

/-- The first files, by name. -/
def Release.firstNames (r : Release) (n : Nat) : List String :=
  (r.files.take n).map DirEntry.name

theorem Release.firstNames_pairwise (r : Release) (n : Nat) :
    (r.firstNames n).Pairwise (· < ·) :=
  List.pairwise_map.mpr (r.files_pairwise.sublist (List.take_sublist n _))

/-- A file is among the first ones when its place is. -/
theorem Release.mem_firstNames {n file : Nat} {f : DirEntry} (hf : r.files[file]? = some f) :
    f.name ∈ r.firstNames n ↔ file < n := by
  obtain ⟨hlt, hget⟩ := List.getElem?_eq_some_iff.mp hf
  simp only [Release.firstNames, List.mem_map, List.mem_take_iff_getElem]
  constructor
  · rintro ⟨g, ⟨i, hi, rfl⟩, hname⟩
    by_contra hge
    -- an earlier file has a smaller name
    have hless := List.pairwise_iff_getElem.mp r.files_pairwise i file (by omega) hlt (by omega)
    rw [hget, hname] at hless
    exact lt_irrefl _ hless
  · intro hfile
    exact ⟨f, ⟨file, by omega, hget⟩, rfl⟩

/-- Files of one name stand in one place. -/
theorem Release.place_ext {i j : Nat} {f g : DirEntry} (hf : r.files[i]? = some f)
    (hg : r.files[j]? = some g) (hname : f.name = g.name) : i = j := by
  have hij : j < i + 1 := (mem_firstNames hg).mp (hname ▸ (mem_firstNames hf).mpr (by omega))
  have hji : i < j + 1 := (mem_firstNames hf).mp (hname ▸ (mem_firstNames hg).mpr (by omega))
  omega

/-! ## The invariant -/

/-- What a boot knows when the first `n` files are applied. -/
def BootInv (r : Release) (n : Nat) (db : Database) : Boot → Prop
  | .ensuring | .failed => True
  | .asking file => db.ledger.isSome ∧ file ≤ n ∧ file < r.files.length
  | .executing file executed left => db.ledger.isSome ∧ file ≤ n ∧
      ∃ f, r.files[file]? = some f ∧ executed ++ left = splitStatements f.content
  | .recorded file executed inserted => db.ledger.isSome ∧ file ≤ n ∧
      (inserted = false → file < n) ∧
      ∃ f, r.files[file]? = some f ∧ executed = splitStatements f.content
  | .done => n = r.files.length

/-- The first `n` files are applied, with their rows, and no others. -/
structure AppliedUpTo (r : Release) (n : Nat) (s : State) : Prop where
  le : n ≤ r.files.length
  effects : s.db.effects = (r.files.take n).map fun f => (f.name, splitStatements f.content)
  row : ∀ (file : Nat) (f : DirEntry), r.files[file]? = some f →
    s.db.row f.name = if file < n then some (r.sha256Hex f.content) else none
  known : ∀ name checksum, s.db.row name = some checksum → ∃ f ∈ r.files, f.name = name
  boots : ∀ (k : Nat) (b : Boot), s.boots[k]? = some b → BootInv r n s.db b

def Inv (r : Release) (s : State) : Prop := ∃ n, AppliedUpTo r n s

theorem AppliedUpTo.applied {n : Nat} (h : AppliedUpTo r n s) : s.db.applied = r.firstNames n := by
  rw [Database.applied, h.effects, List.map_map]
  rfl

/-- What is applied up to some file is applied once. -/
theorem AppliedUpTo.once {n : Nat} (h : AppliedUpTo r n s) : AppliedOnce r s where
  ordered := h.applied ▸ r.firstNames_pairwise n
  whole x hx := by
    rw [h.effects] at hx
    obtain ⟨f, hf, rfl⟩ := List.mem_map.mp hx
    exact ⟨f, List.mem_of_mem_take hf, rfl⟩
  ledger name checksum := by
    rw [h.applied]
    constructor
    · intro hrow
      obtain ⟨f, hf, rfl⟩ := h.known name checksum hrow
      obtain ⟨file, hfile⟩ := List.getElem?_of_mem hf
      rw [h.row file f hfile] at hrow
      split at hrow
      · rename_i hlt
        exact ⟨(Release.mem_firstNames hfile).mpr hlt, f, hf, rfl, (Option.some.inj hrow).symm⟩
      · cases hrow
    · rintro ⟨hmem, f, hf, rfl, rfl⟩
      obtain ⟨file, hfile⟩ := List.getElem?_of_mem hf
      rw [h.row file f hfile, if_pos ((Release.mem_firstNames hfile).mp hmem)]
  finished hdone f hf := by
    obtain ⟨k, hk⟩ := List.getElem?_of_mem hdone
    obtain ⟨file, hfile⟩ := List.getElem?_of_mem hf
    have hall : n = r.files.length := h.boots k .done hk
    rw [h.applied, Release.mem_firstNames hfile, hall]
    exact (List.getElem?_eq_some_iff.mp hfile).1

/-! ## Steps -/

/-- The boots after one of them moved. -/
theorem getElem?_setBoot {k k' : Nat} {b b' : Boot} (h : (s.setBoot k b).boots[k']? = some b') :
    b' = b ∨ s.boots[k']? = some b' := by
  exact (List.getElem?_set_cases h).imp And.right And.right

/-- A boot moves and the database stays. -/
theorem AppliedUpTo.setBoot {n k : Nat} {b : Boot} (h : AppliedUpTo r n s)
    (hb : BootInv r n s.db b) : AppliedUpTo r n (s.setBoot k b) where
  le := h.le
  effects := h.effects
  row := h.row
  known := h.known
  boots k' b' hk' := by
    rcases getElem?_setBoot hk' with rfl | hk'
    · exact hb
    · exact h.boots k' b' hk'

/-- The loop goes on behind a file that is applied. -/
theorem bootInv_enter {n file : Nat} {db : Database} (hledger : db.ledger.isSome)
    (hfile : file ≤ n) (hn : n ≤ r.files.length) : BootInv r n db (r.enter file) := by
  unfold Release.enter
  split
  · exact ⟨hledger, hfile, ‹_›⟩
  · show n = r.files.length
    omega

/-- More files applied and a ledger that stays take nothing from a boot. -/
theorem BootInv.mono {n n' : Nat} {db db' : Database} {b : Boot} (h : BootInv r n db b)
    (hn : n ≤ n') (hn' : n' ≤ r.files.length)
    (hledger : db.ledger.isSome → db'.ledger.isSome) : BootInv r n' db' b := by
  cases b with
  | ensuring => trivial
  | failed => trivial
  | asking file => exact ⟨hledger h.1, h.2.1.trans hn, h.2.2⟩
  | executing file executed left => exact ⟨hledger h.1, h.2.1.trans hn, h.2.2⟩
  | recorded file executed inserted =>
    exact ⟨hledger h.1, h.2.1.trans hn, fun hins => (h.2.2.1 hins).trans_le hn, h.2.2.2⟩
  | done =>
    have hall : n = r.files.length := h
    show n' = r.files.length
    omega

section

attribute [local simp] step

theorem inv_boot {n : Nat} (h : AppliedUpTo r n s) (hs : step r s .boot = some s') :
    AppliedUpTo r n s' := by
  simp at hs
  subst hs
  refine ⟨h.le, h.effects, h.row, h.known, fun k b hk => ?_⟩
  rcases Nat.lt_or_ge k s.boots.length with hlt | hge
  · rw [List.getElem?_append_left hlt] at hk
    exact h.boots k b hk
  · rw [List.getElem?_append_right hge] at hk
    have hb := List.mem_singleton.mp (List.mem_of_getElem? hk)
    rw [hb]
    cases hdir : r.dir with
    | some dir => trivial
    | none =>
      -- without a directory there are no files
      have hfiles : r.files = [] := by rw [Release.files, hdir]; rfl
      have hle := h.le
      show n = r.files.length
      rw [hfiles] at hle ⊢
      exact Nat.le_zero.mp hle

end

theorem inv_ensure {n k : Nat} (h : AppliedUpTo r n s) (hs : step r s (.ensure k) = some s') :
    AppliedUpTo r n s' := by
  simp only [step] at hs
  split at hs
  · cases hs
    have hrow : ∀ name, Database.row { s.db with ledger := some (s.db.ledger.getD .empty) } name =
        s.db.row name := fun name => by
      simp only [Database.row]
      cases s.db.ledger <;> rfl
    refine AppliedUpTo.setBoot ⟨h.le, h.effects, ?_, ?_, ?_⟩
      (bootInv_enter rfl (Nat.zero_le n) h.le)
    · exact fun file f hf => (hrow f.name).trans (h.row file f hf)
    · exact fun name checksum hname => h.known name checksum ((hrow name).symm.trans hname)
    · exact fun k b hk => (h.boots k b hk).mono le_rfl h.le fun _ => rfl
  · cases hs

theorem inv_ask {n k : Nat} (h : AppliedUpTo r n s) (hs : step r s (.ask k) = some s') :
    AppliedUpTo r n s' := by
  simp only [step] at hs
  split at hs
  · rename_i file hboot
    obtain ⟨hledger, hle, -⟩ : BootInv r n s.db (.asking file) := h.boots k _ hboot
    obtain ⟨f, hf, rfl⟩ := Option.map_eq_some_iff.mp hs
    have hrow := h.row file f hf
    split
    · rename_i prev hprev
      split
      · refine h.setBoot (bootInv_enter hledger ?_ h.le)
        -- only an applied file has a row
        by_contra hlt
        rw [hprev, if_neg (by omega)] at hrow
        cases hrow
      · exact h.setBoot trivial
    · exact h.setBoot ⟨hledger, hle, f, hf, List.nil_append _⟩
  · cases hs

theorem inv_exec {n k : Nat} (h : AppliedUpTo r n s) (hs : step r s (.exec k) = some s') :
    AppliedUpTo r n s' := by
  simp only [step] at hs
  split at hs
  · rename_i file executed stmt left hboot
    cases hs
    obtain ⟨hledger, hle, f, hf, hsplit⟩ :
      BootInv r n s.db (.executing file executed (stmt :: left)) := h.boots k _ hboot
    refine h.setBoot ⟨hledger, hle, f, hf, ?_⟩
    rw [List.append_assoc, List.singleton_append, hsplit]
  · cases hs

theorem inv_record {n k : Nat} (h : AppliedUpTo r n s) (hs : step r s (.record k) = some s') :
    AppliedUpTo r n s' := by
  simp only [step] at hs
  split at hs
  · rename_i file executed hboot
    obtain ⟨hledger, hle, f, hf, hsplit⟩ : BootInv r n s.db (.executing file executed []) :=
      h.boots k _ hboot
    obtain ⟨g, hg, hif⟩ := Option.bind_eq_some_iff.mp hs
    cases hf.symm.trans hg
    split at hif
    · cases hif
    · cases hif
      refine h.setBoot ⟨hledger, hle, fun hins => ?_, f, hf, by rw [← hsplit, List.append_nil]⟩
      -- a row that is there is the row of an applied file
      by_contra hlt
      rw [h.row file f hf, if_neg hlt] at hins
      cases hins
  · cases hs

theorem inv_stop {n k : Nat} (h : AppliedUpTo r n s) (hs : step r s (.stop k) = some s') :
    AppliedUpTo r n s' := by
  simp only [step] at hs
  split at hs
  · cases hs
  · cases hs
  · cases hs
  · cases hs
    exact h.setBoot trivial

/-- What a commit does. -/
theorem commit_cases {k : Nat} (hs : step r s (.commit k) = some s') :
    ∃ file executed inserted f, s.boots[k]? = some (.recorded file executed inserted) ∧
      r.files[file]? = some f ∧
      s' = State.setBoot
        { s with db := {
            ledger := s.db.ledger.map fun ledger =>
              if inserted then ledger.set f.name (r.sha256Hex f.content) else ledger
            effects := s.db.effects ++ [(f.name, executed)] } }
        k (r.enter (file + 1)) := by
  simp only [step] at hs
  split at hs
  · rename_i file executed inserted hboot
    obtain ⟨f, hf, rfl⟩ := Option.map_eq_some_iff.mp hs
    exact ⟨file, executed, inserted, f, hboot, hf, rfl⟩
  · cases hs

/-- A commit that finds its file unrecorded applies the first file that was not. -/
theorem inv_commit {n k : Nat} (h : AppliedUpTo r n s) (hs : step r s (.commit k) = some s')
    (hfresh : CommitsUnrecorded r s (.commit k)) : AppliedUpTo r (n + 1) s' := by
  obtain ⟨file, executed, inserted, f, hboot, hf, rfl⟩ := commit_cases hs
  obtain ⟨hledger, hle, hins, g, hg, hsplit⟩ :
    BootInv r n s.db (.recorded file executed inserted) := h.boots k _ hboot
  cases hf.symm.trans hg
  have hnone := hfresh file executed inserted f hboot hf
  -- the file is unrecorded, so it is not among the first `n`; and no boot is further on
  have hlast : ¬ file < n := fun hlt => by
    rw [h.row file f hf, if_pos hlt] at hnone
    cases hnone
  have hfile : file = n := by omega
  subst hfile
  have hlt : file < r.files.length := (List.getElem?_eq_some_iff.mp hf).1
  have hinserted : inserted = true := by
    cases inserted with
    | true => rfl
    | false => exact absurd (hins rfl) hlast
  obtain ⟨ledger, hl⟩ := Option.isSome_iff_exists.mp hledger
  have hrow : ∀ name, Database.row
      { ledger := s.db.ledger.map fun ledger =>
          if inserted = true then ledger.set f.name (r.sha256Hex f.content) else ledger
        effects := s.db.effects ++ [(f.name, executed)] } name =
      if name = f.name then some (r.sha256Hex f.content) else s.db.row name := fun name => by
    simp only [Database.row, hl, Option.map_some, Option.bind_some, if_pos hinserted,
      OrdMap.get?_set]
  have hfmem : f ∈ r.files := List.mem_of_getElem? hf
  refine AppliedUpTo.setBoot ⟨hlt, ?_, ?_, ?_, ?_⟩ (bootInv_enter (by simp [hl]) le_rfl hlt)
  · rw [List.take_add_one, hf, List.map_append, ← h.effects, hsplit]
    rfl
  · intro i g' hg'
    rw [hrow g'.name, h.row i g' hg']
    by_cases hname : g'.name = f.name
    · have hi : i = file := Release.place_ext hg' hf hname
      have hgf : g' = f := Option.some.inj (hg'.symm.trans (hi ▸ hf))
      rw [if_pos hname, hgf, hi, if_pos (Nat.lt_succ_self _)]
    · have hi : i ≠ file := fun hi =>
        hname (congrArg _ (Option.some.inj (hg'.symm.trans (hi ▸ hf))))
      rw [if_neg hname]
      refine if_congr ?_ rfl rfl
      omega
  · intro name checksum hname
    rw [hrow name] at hname
    split at hname
    · exact ⟨f, hfmem, ‹name = f.name›.symm⟩
    · exact h.known name checksum hname
  · intro k' b hk'
    refine (h.boots k' b hk').mono (Nat.le_succ _) hlt fun _ => ?_
    simp [hl]

theorem inv_step (h : Inv r s) (hfresh : CommitsUnrecorded r s e)
    (hs : step r s e = some s') : Inv r s' := by
  obtain ⟨n, h⟩ := h
  cases e with
  | boot => exact ⟨n, inv_boot h hs⟩
  | ensure k => exact ⟨n, inv_ensure h hs⟩
  | ask k => exact ⟨n, inv_ask h hs⟩
  | exec k => exact ⟨n, inv_exec h hs⟩
  | record k => exact ⟨n, inv_record h hs⟩
  | commit k => exact ⟨n + 1, inv_commit h hs hfresh⟩
  | stop k => exact ⟨n, inv_stop h hs⟩

/-- A commit whose file has a row applies the file again. -/
theorem commitsUnrecorded_of_once (h : Inv r s) (hs : step r s e = some s')
    (honce : AppliedOnce r s') : CommitsUnrecorded r s e := by
  cases e with
  | commit k =>
    intro file executed inserted f hboot hf
    obtain ⟨n, h⟩ := h
    obtain ⟨file', executed', inserted', f', hboot', hf', rfl⟩ := commit_cases hs
    cases hboot.symm.trans hboot'
    cases hf.symm.trans hf'
    rw [h.row file f hf]
    split
    · rename_i hlt
      have hordered : (s.db.applied ++ [f.name]).Pairwise (· < ·) := by
        simpa [State.setBoot, Database.applied] using honce.ordered
      rw [List.pairwise_append] at hordered
      have hmem : f.name ∈ s.db.applied := h.applied ▸ (Release.mem_firstNames hf).mpr hlt
      exact absurd (hordered.2.2 f.name hmem f.name (List.mem_singleton_self _)) (lt_irrefl _)
    · rfl
  | _ => trivial

/-! ## Runs -/

/-- The rows of the files that were applied before any boot. -/
theorem upTo_row {n : Nat} {name checksum : String} :
    (Database.upTo r n).row name = some checksum ↔
      ∃ f ∈ r.files.take n, f.name = name ∧ r.sha256Hex f.content = checksum := by
  unfold Database.upTo Database.row
  by_cases hn : n = 0
  · simp [hn]
  · have hnodup : (((r.files.take n).map fun f => (f.name, r.sha256Hex f.content)).map
        Prod.fst).Nodup := by
      rw [List.map_map]
      exact (r.firstNames_pairwise n).imp fun h => ne_of_lt h
    rw [if_neg hn, Option.bind_some, OrdMap.get?_ofList hnodup]
    simp only [List.mem_map, Prod.mk.injEq]

/-- A database on which the first files were applied before any boot. -/
theorem appliedUpTo_start (r : Release) {n : Nat} (hn : n ≤ r.files.length) :
    AppliedUpTo r n (start r n) where
  le := hn
  effects := rfl
  row file f hf := by
    by_cases hfile : file < n
    · rw [if_pos hfile]
      refine upTo_row.mpr ⟨f, ?_, rfl, rfl⟩
      rw [List.mem_take_iff_getElem]
      obtain ⟨hlt, hget⟩ := List.getElem?_eq_some_iff.mp hf
      exact ⟨file, by omega, hget⟩
    · rw [if_neg hfile, Option.eq_none_iff_forall_ne_some]
      intro checksum hrow
      obtain ⟨g, hg, hname, -⟩ := upTo_row.mp hrow
      exact hfile ((Release.mem_firstNames hf).mp (hname ▸ List.mem_map_of_mem hg))
  known name checksum hname := by
    obtain ⟨f, hf, hfname, -⟩ := upTo_row.mp hname
    exact ⟨f, List.mem_of_mem_take hf, hfname⟩
  boots k b hk := by
    cases hk

/-- From a database on which the first files were applied, whatever instances boot and stop:
    every file is applied once, in order and together with its row, if and only if every commit
    finds its file unrecorded. -/
theorem appliedOnce_throughout_iff (r : Release) (n : Fin (r.files.length + 1))
    (es : List Event) :
    Throughout (step r) (AppliedOnce r) (start r n) es ↔
      Meets (step r) (CommitsUnrecorded r) (start r n) es := by
  refine Machine.throughout_iff_meets (I := Inv r) (P := fun _ _ => True) ?_ ?_ ?_ ?_
    ⟨n, appliedUpTo_start r (Nat.le_of_lt_succ n.2)⟩ (Machine.meets_of_mem fun _ _ => trivial)
  · rintro s ⟨n, h⟩
    exact h.once
  · exact fun s e s' h _ hfresh hs => inv_step h hfresh hs
  · exact fun s e s' h _ hs honce => commitsUnrecorded_of_once h hs honce
  · intro s e hnone
    cases e with
    | commit k =>
      intro file executed inserted f hboot hf
      simp [step, hboot, hf] at hnone
    | _ => trivial

/-- A release with one file, and two instances that boot on an empty database together. -/
def oneFile : Release where
  dir := some ⟨[{ name := "003_seed_rate_plans.sql", isDir := false
                  content := "INSERT INTO rate_plans SELECT 1;" }], List.nodup_singleton _⟩
  sha256Hex content := content

def twoBoots : List Event :=
  [.boot, .boot, .ensure 0, .ensure 1, .ask 0, .ask 1, .exec 0, .exec 1, .record 0, .commit 0,
    .record 1, .commit 1]

theorem not_appliedOnce_twoBoots :
    ¬ Throughout (step oneFile) (AppliedOnce oneFile) (start oneFile 0) twoBoots := by
  intro h
  have happlied : (Machine.run (step oneFile) (start oneFile 0) twoBoots).map
      (fun s => s.db.applied) =
      some ["003_seed_rate_plans.sql", "003_seed_rate_plans.sql"] := by decide +kernel
  obtain ⟨s, hs, hnames⟩ := Option.map_eq_some_iff.mp happlied
  have hordered := (h.last hs).ordered
  rw [hnames] at hordered
  exact lt_irrefl _ (List.rel_of_pairwise_cons hordered (List.mem_singleton_self _))

end CallNet.SqlMigrations
