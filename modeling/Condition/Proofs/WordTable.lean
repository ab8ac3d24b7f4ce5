import Condition.Grammar

namespace Condition

/-- The first entry of a word is its only one if no word is repeated. -/
private theorem lookup_eq_some_iff {table : List (String × α)} (distinct : (table.map Prod.fst).Nodup) :
    (table.find? fun entry => entry.1.toList == word).map Prod.snd = some value ↔
      (String.ofList word, value) ∈ table := by
  induction table with
  | nil => simp
  | cons entry rest ih =>
    obtain ⟨absent, distinct⟩ := List.nodup_cons.mp distinct
    by_cases same : entry.1.toList = word
    · have spelled : entry.1 = String.ofList word := by rw [← same, String.ofList_toList]
      have elsewhere : (String.ofList word, value) ∉ rest := by
        intro member
        exact absent (spelled ▸ List.mem_map.mpr ⟨_, member, rfl⟩)
      rw [List.find?_cons_of_pos (by simpa using same), List.mem_cons, or_iff_left elsewhere,
        ← spelled, Prod.ext_iff]
      simp [eq_comm]
    · have different : (String.ofList word, value) ≠ entry := by
        intro equal
        subst equal
        exact same String.toList_ofList
      rw [List.find?_cons_of_neg (by simpa using same), ih distinct, List.mem_cons,
        or_iff_right different]

theorem Token.literal?_eq_some_iff :
    literal? word = some flag ↔ (String.ofList word, flag) ∈ literals :=
  lookup_eq_some_iff (by decide)

theorem Operator.ofSpelling?_eq_some_iff :
    ofSpelling? word = some operator ↔ (String.ofList word, operator) ∈ spellings :=
  lookup_eq_some_iff (by decide)

theorem Token.literal?_eq_none_iff :
    literal? word = none ↔ ∀ flag, (String.ofList word, flag) ∉ literals := by
  rw [Option.eq_none_iff_forall_ne_some]
  exact forall_congr' fun flag => not_congr literal?_eq_some_iff

theorem Operator.ofSpelling?_eq_none_iff :
    ofSpelling? word = none ↔ ∀ operator, (String.ofList word, operator) ∉ spellings := by
  rw [Option.eq_none_iff_forall_ne_some]
  exact forall_congr' fun operator => not_congr ofSpelling?_eq_some_iff

/-- No operator is spelled like a truth value. -/
theorem Token.literal?_of_ofSpelling? (spelled : Operator.ofSpelling? word = some known) :
    literal? word = none := by
  have apart : ∀ entry ∈ Operator.spellings, literal? entry.1.toList = none := by decide
  have free := apart _ (Operator.ofSpelling?_eq_some_iff.mp spelled)
  rwa [String.toList_ofList] at free

namespace Token

theorem ofWord?_eq_boolean_iff :
    ofWord? word = some (.boolean flag) ↔ (String.ofList word, flag) ∈ literals := by
  rw [← literal?_eq_some_iff, ofWord?]
  cases literal? word <;> simp

theorem ofWord?_eq_operator_iff :
    ofWord? word = some (.operator spelled) ↔ (String.ofList word, spelled) ∈ Operator.spellings := by
  rw [← Operator.ofSpelling?_eq_some_iff, ofWord?]
  cases named : literal? word with
  | none => simp
  | some flag =>
    simp only [Option.some.injEq, reduceCtorEq, false_iff]
    intro found
    rw [literal?_of_ofSpelling? found] at named
    cases named

theorem ofWord?_eq_none_iff :
    ofWord? word = none ↔ (∀ flag, (String.ofList word, flag) ∉ literals) ∧
      ∀ operator, (String.ofList word, operator) ∉ Operator.spellings := by
  rw [← literal?_eq_none_iff, ← Operator.ofSpelling?_eq_none_iff, ofWord?]
  cases literal? word <;> simp

theorem ofWord?_cases (known : ofWord? word = some token) :
    (∃ flag, token = .boolean flag) ∨ ∃ spelled, token = .operator spelled := by
  unfold ofWord? at known
  split at known
  · exact .inl ⟨_, (Option.some.inj known).symm⟩
  · obtain ⟨spelled, _, same⟩ := Option.map_eq_some_iff.mp known
    exact .inr ⟨spelled, same.symm⟩

theorem isWordChar_of_ofWord? (known : ofWord? word = some token) :
    word ≠ [] ∧ ∀ char ∈ word, isWordChar char = true := by
  have literalWords : ∀ entry ∈ literals,
      entry.1.toList ≠ [] ∧ entry.1.toList.all isWordChar = true := by decide
  have operatorWords : ∀ entry ∈ Operator.spellings,
      entry.1.toList ≠ [] ∧ entry.1.toList.all isWordChar = true := by decide
  rcases ofWord?_cases known with ⟨flag, rfl⟩ | ⟨spelled, rfl⟩
  · simpa using literalWords _ (ofWord?_eq_boolean_iff.mp known)
  · simpa using operatorWords _ (ofWord?_eq_operator_iff.mp known)

end Token

end Condition
