import CallNet.Engine.IvrFlow
import Mathlib.Algebra.Order.BigOperators.Group.List
import Mathlib.Algebra.Order.Ring.Nat

/-!
# Placeholders in flow texts

A template reads in one way as text and placeholders. The interpreter puts the fact in the
place of each placeholder and leaves the rest alone, unless a placeholder carries the name of
a property that every JavaScript object inherits.
-/

namespace CallNet

namespace Template

/-- A name that a placeholder can carry: `\w+`. -/
def IsName (name : List Char) : Prop := name ≠ [] ∧ ∀ c ∈ name, isWordChar c

def placeholder (name : List Char) : List Char := '$' :: '{' :: (name ++ ['}'])

/-- No placeholder stands in the text. -/
def Plain (text : List Char) : Prop := ∀ name, IsName name → ¬ placeholder name <:+: text

/-- A template as text and placeholders: the text before the first placeholder, and the name
    of each placeholder with the text behind it. -/
structure Reading where
  head : List Char
  tail : List (List Char × List Char)

/-- The names of the placeholders, from left to right. -/
def Reading.names (r : Reading) : List (List Char) := r.tail.map Prod.fst

/-- The text with a value in the place of each placeholder. -/
def Reading.render (r : Reading) (value : List Char → List Char) : List Char :=
  r.head ++ r.tail.flatMap fun piece => value piece.1 ++ piece.2

/-- `r` spells the template, and all its placeholders are read as such. -/
structure Reads (r : Reading) (template : List Char) : Prop where
  spelled : r.render placeholder = template
  plain : Plain r.head
  pieces : ∀ piece ∈ r.tail, IsName piece.1 ∧ Plain piece.2

theorem Plain.of_infix {text sub : List Char} (h : Plain text) (hsub : sub <:+: text) :
    Plain sub :=
  fun name hname hin => h name hname (hin.trans hsub)

theorem not_plain_placeholder {name : List Char} (hname : IsName name) (before after : List Char) :
    ¬ Plain (before ++ placeholder name ++ after) :=
  fun h => h name hname ⟨before, after, rfl⟩

/-- Every template can be read: a character makes the text before the first placeholder
    longer, unless it opens a placeholder there. -/
theorem exists_reads (template : List Char) : ∃ r, Reads r template := by
  induction template with
  | nil =>
    refine ⟨⟨[], []⟩, rfl, ?_, by simp⟩
    intro name _ hin
    simp [placeholder] at hin
  | cons c cs ih =>
    obtain ⟨⟨head, tail⟩, hspelled, hplain, hpieces⟩ := ih
    by_cases hc : Plain (c :: head)
    · exact ⟨⟨c :: head, tail⟩, by rw [← hspelled]; rfl, hc, hpieces⟩
    · simp only [Plain, not_forall, not_not] at hc
      obtain ⟨name, hname, hin⟩ := hc
      -- the rest of the text is plain, so the placeholder stands at the front
      have hfront : placeholder name <+: c :: head :=
        (List.infix_cons_iff.mp hin).resolve_right (hplain name hname)
      obtain ⟨after, hafter⟩ := hfront
      have hhead : head = '{' :: (name ++ ['}']) ++ after := by
        have := congrArg List.tail hafter
        simpa [placeholder] using this.symm
      refine ⟨⟨[], (name, after) :: tail⟩, ?_, ?_, ?_⟩
      · show placeholder name ++ after ++ tail.flatMap _ = c :: cs
        rw [hafter, ← hspelled]
        rfl
      · exact hplain.of_infix List.nil_infix
      · intro piece hpiece
        cases List.mem_cons.mp hpiece with
        | inl heq =>
          subst heq
          refine ⟨hname, hplain.of_infix ?_⟩
          rw [hhead]
          exact (List.suffix_append _ _).isInfix
        | inr hmem => exact hpieces piece hmem

/-! ## Placeholders do not overlap -/

theorem word_ne_dollar {c : Char} (h : isWordChar c = true) : c ≠ '$' := by
  rintro rfl
  exact absurd h (by decide)

/-- A placeholder has one dollar sign, its first character. -/
theorem not_dollar_mem {name : List Char} (hname : IsName name) :
    '$' ∉ '{' :: (name ++ ['}']) := by
  intro h
  simp only [List.mem_cons, List.mem_append, List.not_mem_nil, or_false] at h
  obtain h | h | h := h
  · exact absurd h (by decide)
  · exact word_ne_dollar (hname.2 _ h) rfl
  · exact absurd h (by decide)

/-- Where two placeholders stand in one text, the one that starts first ends before the other
    starts. -/
theorem placeholder_cut {name name' after after' before : List Char} (hname : IsName name)
    (hbefore : before ≠ [])
    (h : placeholder name ++ after = before ++ (placeholder name' ++ after')) :
    ∃ between, before = placeholder name ++ between ∧
      after = between ++ (placeholder name' ++ after') := by
  obtain ⟨between, hb, ha⟩ | ⟨inner, hp, ho⟩ := List.append_eq_append_iff.mp h
  · exact ⟨between, hb, ha⟩
  cases inner with
  | nil => exact ⟨[], by simpa using hp.symm, by simpa using ho.symm⟩
  | cons d inner =>
    -- the second would start inside the first, with a dollar sign
    exfalso
    have hd : d = '$' := by
      simp only [placeholder, List.cons_append, List.cons.injEq] at ho
      exact ho.1.symm
    cases before with
    | nil => exact hbefore rfl
    | cons b before =>
      simp only [placeholder, List.cons_append, List.cons.injEq] at hp
      apply not_dollar_mem hname
      rw [hp.2, hd]
      simp

/-- A placeholder at the front of a text carries one name. -/
theorem name_unique {name name' after after' : List Char} (hname : IsName name)
    (hname' : IsName name') (h : placeholder name ++ after = placeholder name' ++ after') :
    name = name' := by
  have htake : ∀ (name after : List Char), IsName name →
      (name ++ '}' :: after).takeWhile isWordChar = name := by
    intro name after hname
    rw [List.takeWhile_append_of_pos hname.2]
    simp [show isWordChar '}' = false by decide]
  simp only [placeholder, List.cons_append, List.append_assoc, List.nil_append,
    List.cons.injEq, true_and] at h
  rw [← htake name after hname, h, htake name' after' hname']

/-- The reading has every placeholder that stands in the template. -/
theorem Reads.mem_names {r : Reading} {template name : List Char} (h : Reads r template)
    (hname : IsName name) (hin : placeholder name <:+: template) : name ∈ r.names := by
  obtain ⟨head, tail⟩ := r
  induction tail generalizing head template with
  | nil =>
    have hspelled := h.spelled
    simp only [Reading.render, List.flatMap_nil, List.append_nil] at hspelled
    exact absurd (hspelled ▸ hin) (h.plain name hname)
  | cons piece tail ih =>
    obtain ⟨first, text⟩ := piece
    have hpiece := h.pieces _ List.mem_cons_self
    obtain ⟨before, after, htemplate⟩ := hin
    have hspelled : before ++ (placeholder name ++ after) =
        head ++ (placeholder first ++ (text ++ tail.flatMap fun p => placeholder p.1 ++ p.2)) := by
      rw [← List.append_assoc, htemplate, ← h.spelled]
      simp [Reading.render]
    show name ∈ first :: tail.map Prod.fst
    obtain ⟨a, hhead, ha⟩ | ⟨a, hbefore, ha⟩ := List.append_eq_append_iff.mp hspelled
    · by_cases hnil : a = []
      · subst hnil
        rw [name_unique hname hpiece.1 ha]
        exact List.mem_cons_self
      · -- it would stand in the text before the first placeholder
        obtain ⟨between, rfl, -⟩ := placeholder_cut hname hnil ha
        rw [hhead, ← List.append_assoc] at h
        exact absurd h.plain (not_plain_placeholder hname _ _)
    · by_cases hnil : a = []
      · subst hnil
        rw [name_unique hname hpiece.1 ha.symm]
        exact List.mem_cons_self
      · -- it stands behind the first placeholder
        obtain ⟨between, -, hrest⟩ := placeholder_cut hpiece.1 hnil ha
        apply List.mem_cons_of_mem
        have hin : placeholder name <:+: text ++ tail.flatMap fun p => placeholder p.1 ++ p.2 :=
          ⟨between, after, by rw [hrest, List.append_assoc]⟩
        exact ih hin text ⟨rfl, hpiece.2, fun p hp => h.pieces p (List.mem_cons_of_mem _ hp)⟩

/-- The placeholders of the reading stand in the template. -/
theorem Reads.occurs {r : Reading} {template : List Char} (h : Reads r template)
    {piece : List Char × List Char} (hpiece : piece ∈ r.tail) :
    placeholder piece.1 <:+: template := by
  obtain ⟨before, after, hsplit⟩ := List.append_of_mem hpiece
  refine ⟨r.head ++ before.flatMap fun p => placeholder p.1 ++ p.2,
    piece.2 ++ after.flatMap fun p => placeholder p.1 ++ p.2, ?_⟩
  rw [← h.spelled, Reading.render, hsplit]
  simp

end Template

open Template

/-! ## What the interpreter makes of a reading -/

/-- What `substituteVars` puts in the place of a placeholder. -/
def valueText (vars : List (String × String)) (name : List Char) : List Char :=
  match propertyText vars (String.ofList name) with
  | some value => value.toList
  | none => placeholder name

/-- The text of the fact; a placeholder that names no fact stays as it is. -/
def factText (vars : List (String × String)) (name : List Char) : List Char :=
  match vars.lookup (String.ofList name) with
  | some value => value.toList
  | none => placeholder name

/-- What the scanner has read of a placeholder that is open. -/
def opened : Option (List Char) → List Char
  | none => []
  | some name => '$' :: '{' :: name.reverse

section

attribute [local simp] substituteChars

@[simp] theorem substituteChars_nil (vars : List (String × String)) :
    substituteChars vars none [] = [] := by
  simp

@[simp] theorem substituteChars_open (vars : List (String × String)) (cs : List Char) :
    substituteChars vars none ('$' :: '{' :: cs) = substituteChars vars (some []) cs := by
  simp

end

theorem substituteChars_copy (vars : List (String × String)) {c : Char} {cs : List Char}
    (h : ∀ after, c = '$' → cs ≠ '{' :: after) :
    substituteChars vars none (c :: cs) = c :: substituteChars vars none cs := by
  rw [substituteChars]
  exact h

theorem substituteChars_word (vars : List (String × String)) {c : Char} (name cs : List Char)
    (hc : isWordChar c = true) :
    substituteChars vars (some name) (c :: cs) = substituteChars vars (some (c :: name)) cs := by
  rw [substituteChars, if_pos hc]
  intro _ hd
  exact absurd hd (word_ne_dollar hc)

theorem substituteChars_close (vars : List (String × String)) {name : List Char} (cs : List Char)
    (hname : name ≠ []) :
    substituteChars vars (some name) ('}' :: cs) =
      valueText vars name.reverse ++ substituteChars vars none cs := by
  rw [substituteChars, if_neg (by decide), if_pos ⟨rfl, hname⟩]
  · unfold valueText
    split <;> simp [placeholder, *]
  · intro _ hd
    exact absurd hd (by decide)

/-- A placeholder that fails is text, and the character that fails it is read afresh. -/
theorem substituteChars_fail (vars : List (String × String)) {name : List Char} {c : Char}
    (cs : List Char) (hc : isWordChar c = false) (hclose : c = '}' → name = []) :
    substituteChars vars (some name) (c :: cs) =
      opened (some name) ++ substituteChars vars none (c :: cs) := by
  by_cases hopen : ∃ after, c = '$' ∧ cs = '{' :: after
  · obtain ⟨after, rfl, rfl⟩ := hopen
    conv_lhs => rw [substituteChars, if_neg (by decide), if_neg (by simp)]
    rw [substituteChars_open]
    rfl
  · simp only [not_exists, not_and] at hopen
    rw [substituteChars_copy vars hopen]
    conv_lhs => rw [substituteChars.eq_6 _ _ _ _ hopen]
    rw [if_neg (by simp [hc]), if_neg (by simpa using hclose)]
    rfl

/-- Plain text is copied, up to the end of the template or the next placeholder. -/
theorem substituteChars_plain (vars : List (String × String)) {rest : List Char}
    (hrest : rest = [] ∨ ∃ cs, rest = '$' :: '{' :: cs) (pending : Option (List Char))
    (text : List Char) (hword : ∀ name ∈ pending, ∀ c ∈ name, isWordChar c)
    (h : Plain (opened pending ++ text)) :
    substituteChars vars pending (text ++ rest) =
      opened pending ++ text ++ substituteChars vars none rest := by
  match pending, text with
  | none, [] => rfl
  | some name, [] =>
    obtain rfl | ⟨cs, rfl⟩ := hrest
    · simp [substituteChars, opened]
    · show substituteChars vars (some name) ('$' :: '{' :: cs) = _
      rw [substituteChars_fail vars _ (by decide) (by simp), List.append_nil]
  | none, c :: text =>
    by_cases hopen : ∃ after, c = '$' ∧ text = '{' :: after
    · obtain ⟨after, rfl, rfl⟩ := hopen
      show substituteChars vars none ('$' :: '{' :: (after ++ rest)) = _
      rw [substituteChars_open, substituteChars_plain vars hrest (some []) after (by simp) h]
      rfl
    · have hcopy : ∀ after, c = '$' → text ++ rest ≠ '{' :: after := by
        intro after hc htext
        cases text with
        | cons d text =>
          simp only [List.cons_append, List.cons.injEq] at htext
          exact hopen ⟨text, hc, by rw [htext.1]⟩
        | nil =>
          -- what follows the text is the end or a dollar sign
          obtain rfl | ⟨cs, rfl⟩ := hrest
          · exact nomatch htext
          · simp at htext
      have htext : Plain text := h.of_infix (List.suffix_cons c text).isInfix
      show substituteChars vars none (c :: (text ++ rest)) = _
      rw [substituteChars_copy vars hcopy,
        substituteChars_plain vars hrest none text (by simp) htext]
      rfl
  | some name, c :: text =>
    have hname : ∀ c ∈ name, isWordChar c := hword name rfl
    show substituteChars vars (some name) (c :: (text ++ rest)) = _
    by_cases hc : isWordChar c = true
    · have hplain : Plain (opened (some (c :: name)) ++ text) := by
        simpa [opened] using h
      rw [substituteChars_word vars _ _ hc,
        substituteChars_plain vars hrest (some (c :: name)) text (by simpa [hc] using hname) hplain]
      simp [opened]
    · -- the name is not closed here, for the text is plain
      have hclose : c = '}' → name = [] := by
        rintro rfl
        by_contra hne
        have hin : placeholder name.reverse <:+: opened (some name) ++ '}' :: text :=
          ⟨[], text, by simp [placeholder, opened]⟩
        exact h name.reverse ⟨by simpa using hne, by simpa using hname⟩ hin
      have htext : Plain (c :: text) := h.of_infix (List.suffix_append _ _).isInfix
      rw [substituteChars_fail vars _ (by simpa using hc) hclose, ← List.cons_append,
        substituteChars_plain vars hrest none (c :: text) (by simp) htext]
      simp [opened]
termination_by (text.length, pending.isSome.toNat)

/-- A placeholder is replaced by its value. -/
theorem substituteChars_placeholder (vars : List (String × String)) {name : List Char}
    (hname : IsName name) (rest : List Char) :
    substituteChars vars none (placeholder name ++ rest) =
      valueText vars name ++ substituteChars vars none rest := by
  have hread : ∀ read more : List Char, (∀ c ∈ more, isWordChar c) →
      substituteChars vars (some read) (more ++ '}' :: rest) =
        substituteChars vars (some (more.reverse ++ read)) ('}' :: rest) := by
    intro read more hmore
    induction more generalizing read with
    | nil => rfl
    | cons c more ih =>
      simp only [List.forall_mem_cons] at hmore
      rw [List.cons_append, substituteChars_word vars _ _ hmore.1, ih (c :: read) hmore.2]
      simp
  have hopen : placeholder name ++ rest = '$' :: '{' :: (name ++ '}' :: rest) := by
    simp [placeholder]
  rw [hopen, substituteChars_open, hread [] name hname.2, List.append_nil,
    substituteChars_close vars rest (by simpa using hname.1), List.reverse_reverse]

theorem substituteChars_eq (vars : List (String × String)) {r : Reading}
    {template : List Char} (h : Reads r template) :
    substituteChars vars none template = r.render (valueText vars) := by
  obtain ⟨head, tail⟩ := r
  obtain ⟨rfl, hplain, hpieces⟩ := h
  simp only [Reading.render] at hplain ⊢
  induction tail generalizing head with
  | nil =>
    have := substituteChars_plain vars (.inl rfl) none head (by simp) hplain
    simpa [opened] using this
  | cons piece tail ih =>
    have hpiece := hpieces _ List.mem_cons_self
    have hrest := ih piece.2 hpiece.2 fun p hp => hpieces p (List.mem_cons_of_mem _ hp)
    have hopens : ∀ text, ∃ cs, placeholder piece.1 ++ text = '$' :: '{' :: cs :=
      fun text => ⟨piece.1 ++ '}' :: text, by simp [placeholder]⟩
    rw [List.flatMap_cons, List.flatMap_cons, List.append_assoc,
      substituteChars_plain vars (.inr (hopens _)) none head (by simp) hplain,
      substituteChars_placeholder vars hpiece.1, hrest]
    simp [opened]

/-! ## The facts of the call, and inherited properties -/

/-- The text is the template with each fact in the place of its placeholders, and nothing else
    changed. -/
def Substitutes (template : String) (vars : List (String × String)) : Prop :=
  ∃ r, Reads r template.toList ∧
    substituteVars template vars = String.ofList (r.render (factText vars))

/-- `k` is no fact of the call, but a property that every object inherits. -/
def Inherited (vars : List (String × String)) (k : String) : Prop :=
  vars.lookup k = none ∧ (objectPrototype.lookup k).isSome

theorem valueText_of_not_inherited {vars : List (String × String)} {name : List Char}
    (h : ¬ Inherited vars (String.ofList name)) : valueText vars name = factText vars name := by
  unfold valueText factText propertyText
  cases hfact : vars.lookup (String.ofList name) with
  | some value => rfl
  | none =>
    have hproto : objectPrototype.lookup (String.ofList name) = none :=
      Option.not_isSome_iff_eq_none.mp fun hsome => h ⟨hfact, hsome⟩
    rw [hproto]
    rfl

theorem length_nativeText (name : String) : (nativeText name).length = name.length + 29 := by
  have hopen : "function ".length = 9 := by decide
  have hclose : "() \x7b [native code] \x7d".length = 20 := by decide
  unfold nativeText
  rw [String.length_append, String.length_append, hopen, hclose]
  omega

theorem length_lt_of_mem_objectPrototype {p : String × String} (h : p ∈ objectPrototype) :
    p.1.length + 3 < p.2.length := by
  obtain hfirst | hnative := List.mem_append.mp h
  · simp only [List.mem_cons, List.not_mem_nil, or_false] at hfirst
    obtain rfl | rfl := hfirst
    · have hname : "constructor".length = 11 := by decide
      show "constructor".length + 3 < (nativeText "Object").length
      rw [length_nativeText, hname]
      omega
    · decide
  · obtain ⟨name, -, rfl⟩ := List.mem_map.mp hnative
    show name.length + 3 < (nativeText name).length
    rw [length_nativeText]
    omega

/-- The text of an inherited property is longer than the placeholder it takes the place of. -/
theorem length_lt_of_inherited {vars : List (String × String)} {name : List Char}
    (h : Inherited vars (String.ofList name)) :
    (factText vars name).length < (valueText vars name).length := by
  obtain ⟨hfact, hproto⟩ := h
  obtain ⟨text, htext⟩ := Option.isSome_iff_exists.mp hproto
  have hmem : (String.ofList name, text) ∈ objectPrototype := by
    obtain ⟨before, after, hsplit, -⟩ := List.lookup_eq_some_iff.mp htext
    rw [hsplit]
    simp
  have hlt : name.length + 3 < text.length := by
    simpa using length_lt_of_mem_objectPrototype hmem
  unfold factText valueText propertyText
  rw [hfact, htext]
  show (placeholder name).length < text.toList.length
  simp only [placeholder, List.length_cons, List.length_append, List.length_nil,
    String.length_toList]
  omega

theorem length_factText_le (vars : List (String × String)) (name : List Char) :
    (factText vars name).length ≤ (valueText vars name).length := by
  by_cases h : Inherited vars (String.ofList name)
  · exact (length_lt_of_inherited h).le
  · rw [valueText_of_not_inherited h]

theorem Reading.length_render (r : Reading) (value : List Char → List Char) :
    (r.render value).length =
      r.head.length + (r.tail.map fun piece => (value piece.1).length + piece.2.length).sum := by
  simp [Reading.render, List.length_flatMap]

theorem substituteVars_eq (vars : List (String × String)) {r : Reading} {template : String}
    (h : Reads r template.toList) :
    substituteVars template vars = String.ofList (r.render (valueText vars)) := by
  rw [substituteVars, substituteChars_eq vars h]

/-- Where facts alone were put in, no placeholder has an inherited name. -/
theorem Substitutes.not_inherited {template : String} {vars : List (String × String)}
    (h : Substitutes template vars) {k : String} (hname : IsName k.toList)
    (hin : placeholder k.toList <:+: template.toList) : ¬ Inherited vars k := by
  intro hk
  obtain ⟨r, hr, heq⟩ := h
  rw [substituteVars_eq vars hr, String.ofList_inj] at heq
  obtain ⟨piece, hpiece, hk'⟩ := List.mem_map.mp (hr.mem_names hname hin)
  have hlt : (r.render (factText vars)).length < (r.render (valueText vars)).length := by
    rw [Reading.length_render, Reading.length_render, Nat.add_lt_add_iff_left]
    apply List.sum_lt_sum
    · intro p _
      have := length_factText_le vars p.1
      omega
    · refine ⟨piece, hpiece, ?_⟩
      have hinherited : Inherited vars (String.ofList piece.1) := by simpa [hk'] using hk
      have := length_lt_of_inherited hinherited
      omega
  rw [heq] at hlt
  omega

/-- Substitution puts in the facts of the call and nothing else exactly when the name of no
    placeholder is inherited. -/
theorem substitutes_iff (template : String) (vars : List (String × String)) :
    Substitutes template vars ↔
      ∀ k : String, IsName k.toList → placeholder k.toList <:+: template.toList →
        ¬ Inherited vars k := by
  constructor
  · intro h k hname hin
    exact h.not_inherited hname hin
  · intro h
    obtain ⟨r, hr⟩ := exists_reads template.toList
    refine ⟨r, hr, ?_⟩
    rw [substituteVars_eq vars hr]
    have hpieces : ∀ piece ∈ r.tail,
        valueText vars piece.1 ++ piece.2 = factText vars piece.1 ++ piece.2 := by
      intro piece hpiece
      have hk := h (String.ofList piece.1) (by simpa using (hr.pieces piece hpiece).1)
        (by simpa using hr.occurs hpiece)
      rw [valueText_of_not_inherited hk]
    rw [Reading.render, Reading.render, List.flatMap_congr hpieces]

/-- In the mail of a flow, `constructor` is no fact of the call. -/
theorem constructor_substituted : ¬ Substitutes "Hi $\x7bconstructor\x7d"
    [("caller_id", "101"), ("caller_number", "101"), ("destination_number", "700"),
      ("dialed_number", "700"), ("last_digit", ""), ("digits", "")] := by
  intro h
  have hname : IsName "constructor".toList :=
    ⟨by decide, List.all_eq_true.mp (by decide)⟩
  have hin : placeholder "constructor".toList <:+: "Hi $\x7bconstructor\x7d".toList :=
    ⟨"Hi ".toList, [], by decide⟩
  exact h.not_inherited hname hin ⟨by decide, by decide⟩

example : substituteVars "$\x7ba\x7d $\x7bb\x7d $\x7ba" [("a", "$\x7ba\x7d")] =
    "$\x7ba\x7d $\x7bb\x7d $\x7ba" := by
  decide +kernel

end CallNet
