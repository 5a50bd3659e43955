import Mathlib.Data.List.Forall2

/-!
# Outcomes of fallible steps

A sequence of fallible steps succeeds exactly when each step does.  Reading a list of items succeeds
exactly when every item is read, and fails with the failure of one of them.
-/

namespace GeneticProgram.Outcome

variable {Failure Item Result Final : Type}

@[simp] theorem ok_bind (value : Result) (next : Result → Except Failure Final) :
    (Except.ok value >>= next) = next value := rfl

@[simp] theorem error_bind (failure : Failure) (next : Result → Except Failure Final) :
    (Except.error failure >>= next) = .error failure := rfl

theorem bind_eq_ok_iff {first : Except Failure Result} {next : Result → Except Failure Final}
    {value : Final} :
    (first >>= next) = .ok value ↔ ∃ middle, first = .ok middle ∧ next middle = .ok value := by
  cases first with
  | error failure => simp
  | ok middle => simp

theorem map_eq_ok_iff {first : Except Failure Result} {change : Result → Final} {value : Final} :
    first.map change = .ok value ↔ ∃ middle, first = .ok middle ∧ change middle = value := by
  cases first with
  | error failure => simp [Except.map]
  | ok middle => simp [Except.map]

theorem mapError_eq_ok_iff {Other : Type} {first : Except Failure Result}
    {change : Failure → Other} {value : Result} :
    first.mapError change = .ok value ↔ first = .ok value := by
  cases first with
  | error failure => simp [Except.mapError]
  | ok middle => simp [Except.mapError]

theorem map_eq_error_iff {first : Except Failure Result} {change : Result → Final}
    {failure : Failure} : first.map change = .error failure ↔ first = .error failure := by
  cases first with
  | error other => simp [Except.map]
  | ok middle => simp [Except.map]

theorem mapError_eq_error_iff {Other : Type} {first : Except Failure Result}
    {change : Failure → Other} {other : Other} :
    first.mapError change = .error other ↔
      ∃ failure, first = .error failure ∧ change failure = other := by
  cases first with
  | error failure => simp [Except.mapError]
  | ok middle => simp [Except.mapError]

theorem elim_eq_error {found : Option Result} {failure other : Failure}
    (failed : found.elim (.error failure) .ok = Except.error other) :
    found = none ∧ failure = other := by
  cases found with
  | none => exact ⟨rfl, Except.error.inj failed⟩
  | some result => cases failed

/-- Two steps fail with the failure of the first, or with that of the second. -/
theorem bind_eq_error {first : Except Failure Result} {next : Result → Except Failure Final}
    {failure : Failure} (failed : (first >>= next) = .error failure) :
    first = .error failure ∨ ∃ middle, first = .ok middle ∧ next middle = .error failure := by
  cases first with
  | error other => exact .inl (by rw [Except.error.inj failed])
  | ok middle => exact .inr ⟨middle, rfl, failed⟩

/-- A list is read when its items are, each to the result at its place. -/
theorem mapM_eq_ok_iff {read : Item → Except Failure Result} {items : List Item}
    {results : List Result} :
    items.mapM read = .ok results ↔
      List.Forall₂ (fun item result => read item = .ok result) items results := by
  induction items generalizing results with
  | nil =>
      rw [List.mapM_nil, List.forall₂_nil_left_iff]
      exact ⟨fun equal => (Except.ok.inj equal).symm, fun equal => by rw [equal]; rfl⟩
  | cons item items induction =>
      rw [List.mapM_cons, bind_eq_ok_iff, List.forall₂_cons_left_iff]
      constructor
      · rintro ⟨first, read_first, rest⟩
        obtain ⟨others, read_others, equal⟩ := bind_eq_ok_iff.mp rest
        exact ⟨first, others, read_first, induction.mp read_others, (Except.ok.inj equal).symm⟩
      · rintro ⟨first, others, read_first, read_others, rfl⟩
        refine ⟨first, read_first, ?_⟩
        rw [induction.mpr read_others]
        rfl

/-- A list that is not read has a first item that is not, with the same failure. -/
theorem mapM_eq_error_first {read : Item → Except Failure Result} {items : List Item}
    {failure : Failure} (failed : items.mapM read = .error failure) :
    ∃ before item behind, items = before ++ item :: behind ∧
      (∀ earlier ∈ before, ∃ result, read earlier = .ok result) ∧ read item = .error failure := by
  induction items with
  | nil => cases failed
  | cons item items induction =>
      rw [List.mapM_cons] at failed
      cases first : read item with
      | error other =>
          rw [first] at failed
          obtain rfl := Except.error.inj failed
          exact ⟨[], item, items, rfl, List.forall_mem_nil _, first⟩
      | ok value =>
          rw [first, ok_bind] at failed
          have failed_rest : items.mapM read = .error failure := by
            cases rest : items.mapM read with
            | error other =>
                rw [rest] at failed
                obtain rfl := Except.error.inj failed
                rfl
            | ok others =>
                rw [rest] at failed
                cases failed
          obtain ⟨before, found, behind, rfl, earlier, failed_found⟩ := induction failed_rest
          exact ⟨item :: before, found, behind, rfl,
            List.forall_mem_cons.mpr ⟨⟨value, first⟩, earlier⟩, failed_found⟩

/-- A list is not read exactly if one of its items is not, with the same failure, and all before it
are. -/
theorem mapM_eq_error_iff {read : Item → Except Failure Result} {items : List Item}
    {failure : Failure} :
    items.mapM read = .error failure ↔
      ∃ before item behind, items = before ++ item :: behind ∧
        (∀ earlier ∈ before, ∃ result, read earlier = .ok result) ∧ read item = .error failure := by
  refine ⟨mapM_eq_error_first, ?_⟩
  rintro ⟨before, item, behind, rfl, earlier, failed⟩
  induction before with
  | nil => rw [List.nil_append, List.mapM_cons, failed, error_bind]
  | cons first before induction =>
      obtain ⟨⟨value, read_first⟩, earlier_rest⟩ := List.forall_mem_cons.mp earlier
      rw [List.cons_append, List.mapM_cons, read_first, ok_bind, induction earlier_rest, error_bind]

/-- A list is read alike by readers that read each of its items alike. -/
theorem mapM_congr {read other : Item → Except Failure Result} {items : List Item}
    (each : ∀ item ∈ items, read item = other item) : items.mapM read = items.mapM other := by
  induction items with
  | nil => rfl
  | cons item items induction =>
      obtain ⟨first, later⟩ := List.forall_mem_cons.mp each
      rw [List.mapM_cons, List.mapM_cons, first, induction later]

/-- A list is read alike by readers that read alike each of its items before which all are read. -/
theorem mapM_congr_of_earlier {read other : Item → Except Failure Result} {items : List Item}
    (each : ∀ before item behind, items = before ++ item :: behind →
      (∀ earlier ∈ before, ∃ result, other earlier = .ok result) → read item = other item) :
    items.mapM read = items.mapM other := by
  induction items with
  | nil => rfl
  | cons item items induction =>
      rw [List.mapM_cons, List.mapM_cons, each [] item items rfl (List.forall_mem_nil _)]
      cases first : other item with
      | error failure => rfl
      | ok value =>
          rw [ok_bind, ok_bind, induction]
          rintro before found behind rfl earlier
          exact each (item :: before) found behind rfl
            (List.forall_mem_cons.mpr ⟨⟨value, first⟩, earlier⟩)

/-- Where each item is read as before or fails with one and the same failure, so is the list. -/
theorem mapM_eq_or_error {read other : Item → Except Failure Result} {failure : Failure}
    {items : List Item}
    (each : ∀ item ∈ items, read item = other item ∨ read item = .error failure) :
    items.mapM read = items.mapM other ∨ items.mapM read = .error failure := by
  induction items with
  | nil => exact .inl rfl
  | cons item items induction =>
      rw [List.mapM_cons, List.mapM_cons]
      rcases each item List.mem_cons_self with same | failed
      · rw [same]
        cases other item with
        | error earlier => exact .inl rfl
        | ok value =>
            rw [ok_bind, ok_bind]
            rcases induction fun later member => each later (List.mem_cons_of_mem item member) with
              same_rest | failed_rest
            · exact .inl (by rw [same_rest])
            · exact .inr (by rw [failed_rest, error_bind])
      · exact .inr (by rw [failed, error_bind])

/-- A list that does not fail in a certain way is read alike by readers that read each of its items
alike unless the item fails so. -/
theorem mapM_congr_of_not_error {read other : Item → Except Failure Result} {items : List Item}
    (excluded : Failure → Prop)
    (each : ∀ item ∈ items, (∀ failure, read item = .error failure → ¬excluded failure) →
      read item = other item)
    (fine : ∀ failure, items.mapM read = .error failure → ¬excluded failure) :
    items.mapM read = items.mapM other := by
  induction items with
  | nil => rfl
  | cons item items induction =>
      rw [List.mapM_cons] at fine
      have same : read item = other item := by
        refine each item List.mem_cons_self fun failure failed => fine failure ?_
        rw [failed, error_bind]
      rw [List.mapM_cons, List.mapM_cons, ← same]
      cases first : read item with
      | error failure => rfl
      | ok value =>
          rw [first, ok_bind] at fine
          rw [ok_bind, ok_bind, induction fun later member =>
            each later (List.mem_cons_of_mem item member)]
          intro failure failed
          exact fine failure (by rw [failed, error_bind])

/-- Items that are related one by one are related as members of their list. -/
theorem forall₂_and_mem {relation : Item → Result → Prop} {items : List Item}
    {results : List Result} (related : List.Forall₂ relation items results) :
    List.Forall₂ (fun item result => item ∈ items ∧ relation item result) items results := by
  rw [List.forall₂_and_left]
  exact ⟨fun item listed => listed, related⟩

theorem exists_of_forall₂ {relation : Item → Result → Prop} {items : List Item}
    {results : List Result} (related : List.Forall₂ relation items results) {result : Result}
    (member : result ∈ results) : ∃ item ∈ items, relation item result := by
  induction related with
  | nil => cases member
  | @cons item first items results related_first _ induction =>
      rcases List.mem_cons.mp member with rfl | later
      · exact ⟨item, List.mem_cons_self, related_first⟩
      · obtain ⟨found, listed, related_found⟩ := induction later
        exact ⟨found, List.mem_cons_of_mem item listed, related_found⟩

theorem exists_getElem?_of_forall₂ {relation : Item → Result → Prop} {items : List Item}
    {results : List Result} (related : List.Forall₂ relation items results) {index : Nat}
    {item : Item} (listed : items[index]? = some item) :
    ∃ result, results[index]? = some result ∧ relation item result := by
  induction related generalizing index with
  | nil => cases listed
  | @cons first result items results related_first _ induction =>
      cases index with
      | zero =>
          obtain rfl := Option.some.inj listed
          exact ⟨result, rfl, related_first⟩
      | succ index => exact induction listed

/-- Lists whose items are related yield alike where related items do. -/
theorem filterMap_eq_of_forall₂ {relation : Item → Result → Prop} {items : List Item}
    {results : List Result} (related : List.Forall₂ relation items results)
    {first : Item → Option Final} {second : Result → Option Final}
    (alike : ∀ item result, relation item result → first item = second result) :
    items.filterMap first = results.filterMap second := by
  induction related with
  | nil => rfl
  | @cons item result items results related_first _ induction =>
      rw [List.filterMap_cons, List.filterMap_cons, alike item result related_first, induction]

end GeneticProgram.Outcome
