/-!
# Resolution of POSIX paths

`resolve` joins paths from right to left until the result is absolute, and walks the result
from the root.  A directory is the list of the names that lead to it.

* `resolve_eq_foldl`: following the paths one after the other gives the same.
* `walk_eq`: a path climbs out of some directories and then names others; where it starts
  matters only for what it climbs out of.
* `below_follow_iff`: when a path, followed from a directory, leads below that directory.
* `prefix_walk`: without a `..` a path stays in the directory it starts from.
* `join_eq`: joining paths of plain names only puts slashes between them.
-/

namespace PosixPath

abbrev Name := List Char

/-- One component of a path. -/
def enter (dir : List Name) (seg : Name) : List Name :=
  if seg = [] ∨ seg = ['.'] then dir
  else if seg = ['.', '.'] then dir.dropLast
  else dir ++ [seg]

/-- The components of a path one after the other; at the root, `..` stays there. -/
def walk (dir : List Name) (path : List Char) : List Name := (path.splitOn '/').foldl enter dir

def isAbsolute (path : List Char) : Bool := path.head? = some '/'

/-- Prepend the paths from right to left, up to the first that is absolute. -/
def prepend (paths : List (List Char)) : List Char :=
  paths.foldr (fun path acc =>
    if isAbsolute acc ∨ path = [] then acc else path ++ '/' :: acc) []

def resolve (cwd : List Char) (paths : List (List Char)) : List Name :=
  walk [] (prepend (cwd :: paths))

/-- Where a path leads from a directory. -/
def follow (dir : List Name) (path : List Char) : List Name :=
  if isAbsolute path then walk [] path else walk dir path

/-! ## Following paths one after the other -/

@[simp] theorem walk_nil (dir : List Name) : walk dir [] = dir := rfl

theorem walk_append (dir : List Name) (path path' : List Char) :
    walk dir (path ++ '/' :: path') = walk (walk dir path) path' := by
  unfold walk
  rw [List.splitOn_append_cons_self, List.foldl_append]

theorem isAbsolute_append {path : List Char} (hne : path ≠ []) (path' : List Char) :
    isAbsolute (path ++ path') = isAbsolute path := by
  cases path with
  | nil => exact absurd rfl hne
  | cons c cs => rfl

/-- A relative path may be appended to the one before it. -/
theorem follow_append (dir : List Name) {path path' : List Char} (hne : path ≠ [])
    (hrel : isAbsolute path' = false) :
    follow dir (path ++ '/' :: path') = follow (follow dir path) path' := by
  unfold follow
  rw [isAbsolute_append hne, hrel]
  cases isAbsolute path with
  | true => exact walk_append [] path path'
  | false => exact walk_append dir path path'

theorem follow_prepend (dir : List Name) (paths : List (List Char)) :
    follow dir (prepend paths) = paths.foldl follow dir := by
  induction paths generalizing dir with
  | nil => rfl
  | cons path paths ih =>
    rw [List.foldl_cons, ← ih]
    have hcons : prepend (path :: paths) =
        if isAbsolute (prepend paths) ∨ path = [] then prepend paths
        else path ++ '/' :: prepend paths := rfl
    rw [hcons]
    by_cases habs : isAbsolute (prepend paths) = true
    · -- what stands before an absolute path does not matter
      rw [if_pos (.inl habs)]
      simp only [follow, habs, if_true]
    · by_cases hempty : path = []
      · rw [if_pos (.inr hempty), hempty]
        rfl
      · rw [if_neg (not_or.mpr ⟨habs, hempty⟩)]
        exact follow_append dir hempty (by simpa using habs)

/-- Resolving is following the paths from the working directory. -/
theorem resolve_eq_foldl {cwd : List Char} (hcwd : isAbsolute cwd = true)
    (paths : List (List Char)) : resolve cwd paths = paths.foldl follow (walk [] cwd) := by
  have hstart : follow [] cwd = walk [] cwd := by
    rw [follow, if_pos hcwd]
  have habs : isAbsolute (prepend (cwd :: paths)) = true := by
    have hcons : prepend (cwd :: paths) =
        if isAbsolute (prepend paths) ∨ cwd = [] then prepend paths
        else cwd ++ '/' :: prepend paths := rfl
    rw [hcons]
    split
    · rename_i h
      rcases h with h | hempty
      · exact h
      · rw [hempty] at hcwd
        cases hcwd
    · rename_i h
      rw [isAbsolute_append fun hempty => h (.inr hempty)]
      exact hcwd
  calc resolve cwd paths = follow [] (prepend (cwd :: paths)) := by
        rw [follow, if_pos habs, resolve]
    _ = (cwd :: paths).foldl follow [] := follow_prepend [] (cwd :: paths)
    _ = paths.foldl follow (walk [] cwd) := by rw [List.foldl_cons, hstart]

/-! ## Climbing -/

/-- How many directories a path climbs out of, and the names below the last of them. -/
structure Climb where
  ups : Nat
  names : List Name
deriving DecidableEq, Repr

def Climb.enter (c : Climb) (seg : Name) : Climb :=
  if seg = [] ∨ seg = ['.'] then c
  else if seg = ['.', '.'] then
    if c.names = [] then ⟨c.ups + 1, []⟩ else ⟨c.ups, c.names.dropLast⟩
  else ⟨c.ups, c.names ++ [seg]⟩

def climb (path : List Char) : Climb := (path.splitOn '/').foldl Climb.enter ⟨0, []⟩

/-- The directory that a climb from `dir` leads to. -/
def Climb.reach (c : Climb) (dir : List Name) : List Name :=
  dir.take (dir.length - c.ups) ++ c.names

theorem enter_reach (c : Climb) (dir : List Name) (seg : Name) :
    PosixPath.enter (c.reach dir) seg = (c.enter seg).reach dir := by
  unfold PosixPath.enter Climb.enter
  split
  · rfl
  · split
    · by_cases hnames : c.names = []
      · rw [if_pos hnames]
        simp only [Climb.reach, hnames, List.append_nil]
        rw [List.dropLast_eq_take, List.take_take, List.length_take]
        congr 1
        omega
      · rw [if_neg hnames]
        simp only [Climb.reach]
        rw [List.dropLast_append_of_ne_nil hnames]
    · simp only [Climb.reach, List.append_assoc]

theorem walk_eq (dir : List Name) (path : List Char) : walk dir path = (climb path).reach dir := by
  have hwalk : ∀ (segs : List Name) (c : Climb),
      segs.foldl PosixPath.enter (c.reach dir) = (segs.foldl Climb.enter c).reach dir := by
    intro segs
    induction segs with
    | nil => exact fun _ => rfl
    | cons seg segs ih =>
      intro c
      rw [List.foldl_cons, List.foldl_cons, enter_reach, ih]
  have hstart : (⟨0, []⟩ : Climb).reach dir = dir := by
    simp only [Climb.reach, Nat.sub_zero, List.take_length, List.append_nil]
  have h := hwalk (path.splitOn '/') ⟨0, []⟩
  rw [hstart] at h
  exact h

/-! ## Below a directory -/

/-- The path leads to something in the directory or in a directory below it. -/
def Below (dir path : List Name) : Prop := dir <+: path ∧ dir.length < path.length

instance (dir path : List Name) : Decidable (Below dir path) :=
  inferInstanceAs (Decidable (_ ∧ _))

theorem below_append_iff (dir dir' path : List Name) :
    Below (dir ++ dir') (dir ++ path) ↔ Below dir' path := by
  unfold Below
  rw [List.prefix_append_right_inj, List.length_append, List.length_append]
  constructor
  · rintro ⟨hstart, hlength⟩
    exact ⟨hstart, by omega⟩
  · rintro ⟨hstart, hlength⟩
    exact ⟨hstart, by omega⟩

/-- A path leads below the directory it starts from exactly when, after climbing, it names
    again what it climbed out of, and something more. -/
theorem below_follow_iff (dir : List Name) (path : List Char) :
    Below dir (follow dir path) ↔
      Below (if isAbsolute path then dir else dir.drop (dir.length - (climb path).ups))
        (climb path).names := by
  by_cases habs : isAbsolute path = true
  · rw [follow, if_pos habs, if_pos habs, walk_eq]
    simp only [Climb.reach, List.take_nil, List.nil_append]
  · rw [follow, if_neg habs, if_neg habs, walk_eq]
    have h := below_append_iff (dir.take (dir.length - (climb path).ups))
      (dir.drop (dir.length - (climb path).ups)) (climb path).names
    rw [List.take_append_drop] at h
    exact h

/-! ## Staying in a directory -/

/-- A path without a `..` leads into the directory it starts from. -/
theorem prefix_walk {path : List Char} (h : ['.', '.'] ∉ path.splitOn '/') (dir : List Name) :
    dir <+: walk dir path := by
  have hfold : ∀ segs : List Name, ['.', '.'] ∉ segs → ∀ dir, dir <+: segs.foldl enter dir := by
    intro segs
    induction segs with
    | nil => exact fun _ dir => List.prefix_refl dir
    | cons seg segs ih =>
      intro hsegs dir
      have hseg : ['.', '.'] ≠ seg := fun heq => hsegs (heq ▸ List.mem_cons_self)
      have hrest : ['.', '.'] ∉ segs := fun hmem => hsegs (List.mem_cons_of_mem _ hmem)
      have henter : dir <+: enter dir seg := by
        unfold enter
        rw [if_neg (Ne.symm hseg)]
        split
        · exact List.prefix_refl dir
        · exact List.prefix_append dir [seg]
      exact henter.trans (ih hrest _)
  exact hfold _ h dir

/-- A path after a directory and a slash. -/
theorem follow_slash (dir : List Name) {base : List Char} (hbase : base ≠ []) (path : List Char) :
    follow dir (base ++ '/' :: path) = walk (follow dir base) path := by
  unfold follow
  rw [isAbsolute_append hbase]
  split
  · exact walk_append [] base path
  · exact walk_append dir base path

/-! ## Cleaning -/

/-- One component, while a path is cleaned. -/
def cleanEnter (rooted : Bool) (out : List Name) (seg : Name) : List Name :=
  if seg = [] ∨ seg = ['.'] then out
  else if seg = ['.', '.'] then
    match out.getLast? with
    | none => if rooted then [] else [seg]
    | some last => if last = ['.', '.'] then out ++ [seg] else out.dropLast
  else out ++ [seg]

/-- The shortest path that leads where `path` does. -/
def clean (path : List Char) : List Char :=
  let rooted := isAbsolute path
  let names := ['/'].intercalate ((path.splitOn '/').foldl (cleanEnter rooted) [])
  if rooted then '/' :: names else if names = [] then ['.'] else names

/-- Put slashes between the paths from the first one that is not empty, and clean. -/
def join (paths : List (List Char)) : List Char :=
  match paths.dropWhile (· = []) with
  | [] => []
  | paths => clean (['/'].intercalate paths)

/-- A name that stands for itself. -/
structure Plain (seg : Name) : Prop where
  ne_nil : seg ≠ []
  ne_dot : seg ≠ ['.']
  ne_dots : seg ≠ ['.', '.']
  no_slash : '/' ∉ seg

theorem cleanEnter_plain {seg : Name} (h : Plain seg) (rooted : Bool) (out : List Name) :
    cleanEnter rooted out seg = out ++ [seg] := by
  unfold cleanEnter
  rw [if_neg (not_or.mpr ⟨h.ne_nil, h.ne_dot⟩), if_neg h.ne_dots]

theorem foldl_cleanEnter_plain {segs : List Name} (h : ∀ seg ∈ segs, Plain seg) (rooted : Bool)
    (out : List Name) : segs.foldl (cleanEnter rooted) out = out ++ segs := by
  induction segs generalizing out with
  | nil => exact (List.append_nil out).symm
  | cons seg segs ih =>
    rw [List.foldl_cons, cleanEnter_plain (h seg List.mem_cons_self),
      ih fun seg hseg => h seg (List.mem_cons_of_mem _ hseg), List.append_assoc,
      List.singleton_append]

/-- Plain names with slashes between them are clean. -/
theorem clean_intercalate {segs : List Name} (hne : segs ≠ []) (h : ∀ seg ∈ segs, Plain seg) :
    clean (['/'].intercalate segs) = ['/'].intercalate segs := by
  obtain ⟨seg, rest, rfl⟩ := List.exists_cons_of_ne_nil hne
  have hseg := h seg List.mem_cons_self
  obtain ⟨c, cs, rfl⟩ := List.exists_cons_of_ne_nil hseg.ne_nil
  have hstart : ∃ tail, ['/'].intercalate ((c :: cs) :: rest) = c :: tail := by
    cases rest with
    | nil => exact ⟨cs, by simp [List.intercalate]⟩
    | cons seg' rest => exact ⟨cs ++ '/' :: ['/'].intercalate (seg' :: rest), by simp⟩
  obtain ⟨tail, htail⟩ := hstart
  have hslash : c ≠ '/' := fun hc => hseg.no_slash (hc ▸ List.mem_cons_self)
  have hrel : isAbsolute (['/'].intercalate ((c :: cs) :: rest)) = false := by
    rw [htail]
    simpa [isAbsolute] using hslash
  have hnames : (['/'].intercalate ((c :: cs) :: rest)).splitOn '/' = (c :: cs) :: rest :=
    List.splitOn_intercalate '/' (fun seg hseg => (h seg hseg).no_slash) hne
  have hnonempty : ['/'].intercalate ((c :: cs) :: rest) ≠ [] := by
    rw [htail]
    exact List.cons_ne_nil c tail
  simp only [clean, hrel, hnames, foldl_cleanEnter_plain h, List.nil_append, Bool.false_eq_true,
    if_false, hnonempty]

theorem join_eq {segs : List Name} (hne : segs ≠ []) (h : ∀ seg ∈ segs, Plain seg) :
    join segs = ['/'].intercalate segs := by
  obtain ⟨seg, rest, rfl⟩ := List.exists_cons_of_ne_nil hne
  have hkeep : (seg :: rest).dropWhile (fun seg => decide (seg = [])) = seg :: rest :=
    List.dropWhile_cons_of_neg (by simpa using (h seg List.mem_cons_self).ne_nil)
  unfold join
  rw [hkeep]
  exact clean_intercalate hne h

theorem intercalate_concat {segs : List Name} (hne : segs ≠ []) (name : Name) :
    ['/'].intercalate (segs ++ [name]) = ['/'].intercalate segs ++ '/' :: name := by
  induction segs with
  | nil => exact absurd rfl hne
  | cons seg rest ih =>
    cases rest with
    | nil => simp [List.intercalate]
    | cons seg' rest =>
      rw [List.cons_append, List.cons_append, List.intercalate_cons_cons, ← List.cons_append,
        ih (List.cons_ne_nil seg' rest), List.intercalate_cons_cons]
      simp only [List.append_assoc]

/-- A name after a joined path. -/
theorem join_concat {segs : List Name} (hne : segs ≠ []) (h : ∀ seg ∈ segs, Plain seg)
    {name : Name} (hname : Plain name) :
    join [join segs, name] = ['/'].intercalate (segs ++ [name]) := by
  have hpath : ['/'].intercalate [['/'].intercalate segs, name] =
      ['/'].intercalate (segs ++ [name]) := by
    rw [intercalate_concat hne]
    simp
  have hstart : ['/'].intercalate segs ≠ [] := by
    intro hnil
    have hsegs : segs = [[]] := by
      rw [← List.splitOn_intercalate '/' (fun seg hseg => (h seg hseg).no_slash) hne, hnil]
      rfl
    exact (h [] (hsegs ▸ List.mem_cons_self)).ne_nil rfl
  have hkeep : [['/'].intercalate segs, name].dropWhile (fun seg => decide (seg = [])) =
      [['/'].intercalate segs, name] := List.dropWhile_cons_of_neg (by simpa using hstart)
  rw [join_eq hne h]
  unfold join
  rw [hkeep]
  show clean (['/'].intercalate [['/'].intercalate segs, name]) = _
  rw [hpath]
  refine clean_intercalate (by simp) fun seg hseg => ?_
  rcases List.mem_append.mp hseg with hseg | hseg
  · exact h seg hseg
  · exact List.mem_singleton.mp hseg ▸ hname

end PosixPath
