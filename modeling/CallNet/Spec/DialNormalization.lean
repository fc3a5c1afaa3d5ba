import CallNet.Spec.Characters

/-!
# Normalised numbers

The dial plan classifies what is left of a dialed string without its separators, and some of
its classes write the number anew.  A rewritten number falls into the class it was made by
(`resolve_normalized`).
-/

namespace CallNet

section Patterns

variable {word : String} {lo hi : Nat} {s group : List Char} {g : String}

/-- What a word pattern captures. -/
structure IsGroup (lo hi : Nat) (g : String) : Prop where
  alnum : ∀ c ∈ g.toList, isAlnum c = true
  lower : ∀ c ∈ g.toList, c.toLower = c
  lo_le : lo ≤ g.toList.length
  le_hi : g.toList.length ≤ hi

theorem isGroup_of_wordPattern (h : wordPattern word lo hi s = some g) : IsGroup lo hi g := by
  unfold wordPattern at h
  split at h
  · rename_i group _
    split at h
    · rename_i hgroup
      cases h
      have hall : ∀ c ∈ group, isAlnum c = true := by simpa using hgroup.1
      refine ⟨fun c hc => ?_, fun c hc => ?_, ?_, ?_⟩
      · rw [String.toList_ofList] at hc
        obtain ⟨d, hd, rfl⟩ := List.mem_map.mp hc
        exact isAlnum_toLower (hall d hd)
      · rw [String.toList_ofList] at hc
        obtain ⟨d, hd, rfl⟩ := List.mem_map.mp hc
        exact toLower_toLower (hall d hd)
      · rw [String.toList_ofList, List.length_map]
        exact hgroup.2.1
      · rw [String.toList_ofList, List.length_map]
        exact hgroup.2.2
    · cases h
  · cases h

/-- A group is captured as it is. -/
theorem IsGroup.wordPattern (h : IsGroup lo hi g)
    (hword : word.toList.map Char.toLower = word.toList) :
    wordPattern word lo hi (word.toList ++ g.toList) = some g := by
  have hlower : g.toList.map Char.toLower = g.toList := by
    rw [List.map_congr_left h.lower, List.map_id']
  unfold CallNet.wordPattern
  rw [← String.length_toList, List.take_left', List.drop_left', hword, stripPrefix?_append]
  · have hall : g.toList.all isAlnum = true := List.all_eq_true.mpr h.alnum
    simp only [hall, h.lo_le, h.le_hi, and_self, if_true, hlower, String.ofList_toList]
  · rfl
  · rfl

/-- Another first letter. -/
theorem wordPattern_of_head {c w : Char} {cs ws : List Char} (hword : word.toList = w :: ws)
    (hne : w ≠ c.toLower) : wordPattern word lo hi (c :: cs) = none := by
  unfold wordPattern
  rw [← String.length_toList, hword]
  simp only [List.length_cons, List.take_succ_cons, List.map_cons, List.cons_append, stripPrefix?,
    if_neg hne]

end Patterns

/-! ## Separators -/

theorem toList_cleanDialed (dialed : String) :
    (cleanDialed dialed).toList = dialed.toList.filter fun c => !isSeparator c :=
  String.toList_ofList

theorem cleanDialed_of_forall {s : String} (h : ∀ c ∈ s.toList, isSeparator c = false) :
    cleanDialed s = s := by
  rw [← String.toList_inj, toList_cleanDialed]
  refine List.filter_eq_self.mpr fun c hc => ?_
  rw [h c hc]
  rfl

theorem cleanDialed_cleanDialed (dialed : String) :
    cleanDialed (cleanDialed dialed) = cleanDialed dialed := by
  refine cleanDialed_of_forall fun c hc => ?_
  rw [toList_cleanDialed] at hc
  simpa using (List.mem_filter.mp hc).2

/-- `s'` is `s` with separators inserted. -/
inductive Inserted : List Char → List Char → Prop
  | nil : Inserted [] []
  | keep (c : Char) {s s' : List Char} (h : Inserted s s') : Inserted (c :: s) (c :: s')
  | insert {c : Char} (hc : isSeparator c = true) {s s' : List Char} (h : Inserted s s') :
    Inserted s (c :: s')

theorem Inserted.filter_eq {s s' : List Char} (h : Inserted s s') :
    s'.filter (fun c => !isSeparator c) = s.filter fun c => !isSeparator c := by
  induction h with
  | nil => rfl
  | keep c _ ih =>
    rw [List.filter_cons, List.filter_cons, ih]
  | insert hc _ ih =>
    rw [List.filter_cons_of_neg (by simp [hc]), ih]

/-! ## Resolutions -/

section Resolve

variable {emergencyNumbers : List String} {dialed dialed' : String}

/-- Only what is left without separators counts. -/
theorem resolve_congr (h : cleanDialed dialed' = cleanDialed dialed) :
    resolve emergencyNumbers dialed' =
      { resolve emergencyNumbers dialed with originalNumber := dialed' } := by
  unfold resolve
  rw [h]
  generalize cleanDialed dialed = cleaned
  dsimp only
  repeat' split
  all_goals rfl

/-- The route type, the target and the normalised number. -/
def DialResult.route (r : DialResult) : RouteType × String × String :=
  (r.type, r.target, r.normalizedNumber)

theorem DialResult.normalizedNumber_of_route {r : DialResult} {type : RouteType}
    {target number : String} (h : r.route = (type, target, number)) :
    r.normalizedNumber = number :=
  congrArg (fun route => route.2.2) h

theorem route_congr (h : cleanDialed dialed' = cleanDialed dialed) :
    (resolve emergencyNumbers dialed').route = (resolve emergencyNumbers dialed).route := by
  rw [resolve_congr h]
  unfold DialResult.route
  dsimp only

/-- What a number is normalised to: what was dialed, or the group of a word pattern after its
    word, or an international number. -/
theorem normalizedNumber_cases (emergencyNumbers : List String) (dialed : String) :
    (resolve emergencyNumbers dialed).normalizedNumber = cleanDialed dialed ∨
      (∃ roomId, IsGroup 3 32 roomId ∧
        (resolve emergencyNumbers dialed).route = (.conference, roomId, "conf-" ++ roomId)) ∨
      (∃ queueId, IsGroup 2 32 queueId ∧
        (resolve emergencyNumbers dialed).route = (.queue, queueId, "queue-" ++ queueId)) ∨
      (externalPattern (cleanDialed dialed).toList = true ∧
        (resolve emergencyNumbers dialed).route =
          (.external, internationalForm (cleanDialed dialed),
            internationalForm (cleanDialed dialed))) := by
  unfold resolve
  generalize cleanDialed dialed = cleaned
  dsimp only
  -- the patterns in the order in which they are tried
  split
  · exact .inl rfl
  · split
    · rename_i roomId hroom
      exact .inr (.inl ⟨roomId, isGroup_of_wordPattern hroom, rfl⟩)
    · split
      · rename_i queueId hqueue
        exact .inr (.inr (.inl ⟨queueId, isGroup_of_wordPattern hqueue, rfl⟩))
      · split
        · exact .inl rfl
        · split
          · exact .inl rfl
          · split
            · rename_i hexternal
              exact .inr (.inr (.inr ⟨hexternal, rfl⟩))
            · exact .inl rfl

/-- A word in front of a group, and the hyphen that the dial plan drops. -/
theorem cleanDialed_word {lo hi : Nat} {g : String} (word : String)
    (hword : ∀ c ∈ word.toList, isAlnum c = true) (hg : IsGroup lo hi g) :
    cleanDialed (word ++ "-" ++ g) = word ++ g := by
  rw [← String.toList_inj, toList_cleanDialed]
  simp only [String.toList_append, List.filter_append]
  have hkeep : ∀ s : String, (∀ c ∈ s.toList, isAlnum c = true) →
      s.toList.filter (fun c => !isSeparator c) = s.toList := by
    intro s hs
    refine List.filter_eq_self.mpr fun c hc => ?_
    rw [isSeparator_of_isAlnum (hs c hc)]
    rfl
  rw [hkeep word hword, hkeep g hg.alnum]
  have hhyphen : "-".toList.filter (fun c => !isSeparator c) = [] := by decide
  rw [hhyphen, List.append_nil]

/-- What is no digit string is no emergency number. -/
theorem not_mem_emergencyNumbers {s : String} {c : Char} {cs : List Char}
    (hdigits : ∀ n ∈ emergencyNumbers, n.toList.all isDigit = true) (hs : s.toList = c :: cs)
    (hc : isDigit c = false) : s ∉ emergencyNumbers := by
  intro h
  have hall := hdigits s h
  rw [hs, List.all_cons, hc] at hall
  cases hall

theorem resolve_conference {roomId : String} (hg : IsGroup 3 32 roomId)
    (hdigits : ∀ n ∈ emergencyNumbers, n.toList.all isDigit = true) :
    (resolve emergencyNumbers ("conf-" ++ roomId)).route =
      (.conference, roomId, "conf-" ++ roomId) := by
  have hclean : cleanDialed ("conf-" ++ roomId) = "conf" ++ roomId :=
    cleanDialed_word "conf" (List.all_eq_true.mp (by decide)) hg
  have hs : ("conf" ++ roomId).toList = 'c' :: 'o' :: 'n' :: 'f' :: roomId.toList :=
    String.toList_append
  have hemergency := not_mem_emergencyNumbers hdigits hs rfl
  have hroom : conferencePattern ("conf" ++ roomId).toList = some roomId := by
    have hword : "conf".toList.map Char.toLower = "conf".toList := by decide
    have h := hg.wordPattern hword
    rwa [← String.toList_append] at h
  unfold resolve
  simp only [hclean, if_neg hemergency, hroom]
  rfl

theorem resolve_queue {queueId : String} (hg : IsGroup 2 32 queueId)
    (hdigits : ∀ n ∈ emergencyNumbers, n.toList.all isDigit = true) :
    (resolve emergencyNumbers ("queue-" ++ queueId)).route =
      (.queue, queueId, "queue-" ++ queueId) := by
  have hclean : cleanDialed ("queue-" ++ queueId) = "queue" ++ queueId :=
    cleanDialed_word "queue" (List.all_eq_true.mp (by decide)) hg
  have hs : ("queue" ++ queueId).toList =
      'q' :: 'u' :: 'e' :: 'u' :: 'e' :: queueId.toList := String.toList_append
  have hemergency := not_mem_emergencyNumbers hdigits hs rfl
  -- the pattern of conferences comes first
  have hroom : conferencePattern ("queue" ++ queueId).toList = none := by
    rw [hs]
    exact wordPattern_of_head rfl (by decide)
  have hqueue : queuePattern ("queue" ++ queueId).toList = some queueId := by
    have hword : "queue".toList.map Char.toLower = "queue".toList := by decide
    have h := hg.wordPattern hword
    rwa [← String.toList_append] at h
  unfold resolve
  simp only [hclean, if_neg hemergency, hroom, hqueue]
  rfl

/-! ### International numbers -/

/-- A plus sign and digits, as many as an external number may have. -/
structure IsInternational (number : String) (ds : List Char) : Prop where
  toList : number.toList = '+' :: ds
  digits : ∀ c ∈ ds, isDigit c = true
  seven_le : 7 ≤ ds.length
  le_fifteen : ds.length ≤ 15

theorem keepNumber_of_forall {s : String} (h : ∀ c ∈ s.toList, c = '+' ∨ isDigit c = true) :
    keepNumber s = s := by
  rw [← String.toList_inj, keepNumber, String.toList_ofList]
  exact List.filter_eq_self.mpr fun c hc => decide_eq_true (h c hc)

/-- A number that begins with a plus sign stays as it is. -/
theorem internationalForm_of_plus {number : String} {ds : List Char}
    (hs : number.toList = '+' :: ds) (hdigits : ∀ c ∈ ds, isDigit c = true) :
    internationalForm number = number := by
  have hkeep : keepNumber number = number := by
    refine keepNumber_of_forall fun c hc => ?_
    rw [hs] at hc
    exact (List.mem_cons.mp hc).imp_right (hdigits c)
  unfold internationalForm
  simp only [hkeep, hs]

/-- What the dial plan makes of an external number. -/
theorem isInternational_of_external {number : String}
    (h : externalPattern number.toList = true) :
    ∃ ds, IsInternational (internationalForm number) ds := by
  unfold externalPattern at h
  split at h
  · rename_i ds hs
    obtain ⟨hall, hlo, hhi⟩ := of_decide_eq_true h
    have hdigits : ∀ c ∈ ds, isDigit c = true := List.all_eq_true.mp hall
    rw [internationalForm_of_plus hs hdigits]
    exact ⟨ds, hs, hdigits, hlo, hhi⟩
  · rename_i hplus
    obtain ⟨hall, hlo, hhi⟩ := of_decide_eq_true h
    have hdigits : ∀ c ∈ number.toList, isDigit c = true := List.all_eq_true.mp hall
    have hkeep : keepNumber number = number := keepNumber_of_forall fun c hc => .inr (hdigits c hc)
    -- a country code is one or two digits more, in front of ten
    have hcoded (code : List Char) (hcode : code.all isDigit = true)
        (hlength : (code ++ number.toList).length ≤ 15) :
        IsInternational (String.ofList ('+' :: code) ++ number) (code ++ number.toList) := by
      refine ⟨?_, fun c hc => ?_, ?_, hlength⟩
      · rw [String.toList_append, String.toList_ofList, List.cons_append]
      · exact (List.mem_append.mp hc).elim (List.all_eq_true.mp hcode c) (hdigits c)
      · rw [List.length_append]
        omega
    unfold internationalForm
    simp only [hkeep]
    split
    · rename_i hten
      exact ⟨_, hcoded ['9', '1'] (by decide) (by simp [hten.1])⟩
    · split
      · rename_i hten
        exact ⟨_, hcoded ['1'] (by decide) (by simp [hten])⟩
      · exact ⟨_, hcoded [] rfl hhi⟩

theorem resolve_international {number : String} {ds : List Char} (h : IsInternational number ds)
    (hdigits : ∀ n ∈ emergencyNumbers, n.toList.all isDigit = true) :
    (resolve emergencyNumbers number).route = (.external, number, number) := by
  have hclean : cleanDialed number = number := by
    refine cleanDialed_of_forall fun c hc => ?_
    rw [h.toList] at hc
    rcases List.mem_cons.mp hc with rfl | hc
    · decide
    · exact isSeparator_of_isAlnum (isAlnum_of_isDigit (h.digits c hc))
  -- none of the patterns before the external one begins with a plus sign
  have hemergency := not_mem_emergencyNumbers hdigits h.toList rfl
  have hroom : conferencePattern number.toList = none := by
    rw [h.toList]
    exact wordPattern_of_head rfl (by decide)
  have hqueue : queuePattern number.toList = none := by
    rw [h.toList]
    exact wordPattern_of_head rfl (by decide)
  have hivr : ivrPattern number.toList = false := by
    rw [h.toList]
    rfl
  have hinternal : internalPattern number.toList = false := by
    rw [h.toList]
    rfl
  have hexternal : externalPattern number.toList = true := by
    rw [h.toList]
    have hall : ds.all isDigit = true := List.all_eq_true.mpr h.digits
    simp [externalPattern, hall, h.seven_le, h.le_fifteen]
  have hsame := internationalForm_of_plus h.toList h.digits
  unfold resolve
  simp only [hclean, if_neg hemergency, hroom, hqueue, hivr, hinternal, hexternal,
    normalizeExternal, hsame, Bool.false_eq_true, if_false, if_true]
  rfl

end Resolve

/-! ## The laws -/

/-- With emergency numbers that are digit strings: the normalised number of a resolution resolves
    to the same route, target and number; and separators do not matter, wherever they are. -/
theorem resolve_normalized (emergencyNumbers : List String)
    (hdigits : ∀ n ∈ emergencyNumbers, n.toList.all isDigit = true) (dialed : String) :
    (resolve emergencyNumbers (resolve emergencyNumbers dialed).normalizedNumber).route =
        (resolve emergencyNumbers dialed).route ∧
      ∀ dialed', Inserted dialed.toList dialed'.toList → resolve emergencyNumbers dialed' =
        { resolve emergencyNumbers dialed with originalNumber := dialed' } := by
  constructor
  · rcases normalizedNumber_cases emergencyNumbers dialed with
      hsame | ⟨roomId, hg, hroute⟩ | ⟨queueId, hg, hroute⟩ | ⟨hexternal, hroute⟩
    · -- what was dialed, without its separators
      rw [hsame]
      exact route_congr (cleanDialed_cleanDialed dialed)
    · rw [DialResult.normalizedNumber_of_route hroute, hroute]
      exact resolve_conference hg hdigits
    · rw [DialResult.normalizedNumber_of_route hroute, hroute]
      exact resolve_queue hg hdigits
    · obtain ⟨ds, hds⟩ := isInternational_of_external hexternal
      rw [DialResult.normalizedNumber_of_route hroute, hroute]
      exact resolve_international hds hdigits
  · intro dialed' hinserted
    refine resolve_congr ?_
    rw [← String.toList_inj, toList_cleanDialed, toList_cleanDialed]
    exact hinserted.filter_eq

/-- A number with and without a separator. -/
theorem resolve_normalized_mobile :
    (resolve ["112", "911"] (resolve ["112", "911"] "98765 43210").normalizedNumber).route =
        (resolve ["112", "911"] "98765 43210").route ∧
      ∀ dialed', Inserted "98765 43210".toList dialed'.toList → resolve ["112", "911"] dialed' =
        { resolve ["112", "911"] "98765 43210" with originalNumber := dialed' } :=
  resolve_normalized ["112", "911"] (by decide) "98765 43210"

end CallNet
