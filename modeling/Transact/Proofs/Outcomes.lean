import Mathlib.Data.List.Forall2

/-!
# When a chain of steps succeeds

Compilers, writers and readers are chains of steps of which each can fail. These laws take a
chain apart: it ends in a value exactly when every step of it does, and a step applied to each
item of a list gives a list that stands item by item beside the first.

Where all steps of a chain fail for the same cause, each under a condition of its own, so does the
chain, under the conditions taken together (`FailsIff`).

Outcomes can be compared whenever their faults and their values can, so what a chain does with a
concrete input is found by evaluating it.
-/

namespace Transact.Outcome

/-- Two outcomes agree when both failed with the same fault or both ended in the same value. -/
instance decidableEq {fault value : Type} [DecidableEq fault] [DecidableEq value] :
    DecidableEq (Except fault value)
  | .ok first, .ok second =>
    decidable_of_iff (first = second) ⟨congrArg Except.ok, fun same => by cases same; rfl⟩
  | .error first, .error second =>
    decidable_of_iff (first = second) ⟨congrArg Except.error, fun same => by cases same; rfl⟩
  | .ok _, .error _ => isFalse nofun
  | .error _, .ok _ => isFalse nofun

variable {fault α β : Type}

/-- Two steps in a row succeed exactly when the first gives a value with which the second
succeeds. -/
theorem bind_eq_ok_iff (first : Except fault α) (next : α → Except fault β) (result : β) :
    first >>= next = .ok result ↔ ∃ value, first = .ok value ∧ next value = .ok result := by
  cases first with
  | error cause => simp [bind, Except.bind]
  | ok value => simp [bind, Except.bind]

/-- A check in front of a step succeeds exactly when it is passed and the step succeeds. -/
theorem check_eq_ok_iff (check : Except fault Unit) (next : Unit → Except fault β) (result : β) :
    check >>= next = .ok result ↔ check = .ok () ∧ next () = .ok result := by
  rw [bind_eq_ok_iff]
  exact ⟨fun ⟨_, passed, continued⟩ => ⟨passed, continued⟩,
    fun ⟨passed, continued⟩ => ⟨(), passed, continued⟩⟩

/-- A refusal in front of a step is passed exactly when there is nothing to refuse. -/
theorem refuse_eq_ok_iff (refused : Prop) [Decidable refused] (cause : fault)
    (never : α → Except fault β) (next : Except fault β) (result : β) :
    (if refused then throw cause >>= never else next) = .ok result ↔
      ¬refused ∧ next = .ok result := by
  by_cases holds : refused
  · simp [holds, throw, throwThe, MonadExceptOf.throw, bind, Except.bind]
  · simp [holds]

/-- A value passed on unchanged in kind: the outcome succeeds exactly when its source does. -/
theorem map_eq_ok_iff (change : α → β) (outcome : Except fault α) (result : β) :
    outcome.map change = .ok result ↔ ∃ value, outcome = .ok value ∧ change value = result := by
  cases outcome with
  | error cause => simp [Except.map]
  | ok value => simp [Except.map]

/-- A change of the value leaves the failures of an outcome as they are. -/
theorem map_eq_error_iff (change : α → β) (outcome : Except fault α) (cause : fault) :
    outcome.map change = .error cause ↔ outcome = .error cause := by
  cases outcome with
  | error other => simp [Except.map]
  | ok value => simp [Except.map]

/-- Renaming the faults of an outcome leaves its successes as they are. -/
theorem mapError_eq_ok_iff {other : Type} (rename : fault → other) (outcome : Except fault α)
    (result : α) : outcome.mapError rename = .ok result ↔ outcome = .ok result := by
  cases outcome with
  | error cause => simp [Except.mapError]
  | ok value => simp [Except.mapError]

/-- Forgetting the faults of an outcome leaves its successes as they are. -/
theorem toOption_eq_some_iff {outcome : Except fault α} {result : α} :
    outcome.toOption = some result ↔ outcome = .ok result := by
  cases outcome with
  | error cause => simp [Except.toOption]
  | ok value => simp [Except.toOption]

/-- A check of an outcome that may have failed is a check of the value it would have. -/
theorem toOption_all_iff (outcome : Except fault α) (check : α → Bool) :
    outcome.toOption.all check = true ↔ ∀ value, outcome = .ok value → check value = true := by
  cases outcome with
  | error cause => simp [Except.toOption]
  | ok value => simp [Except.toOption]

/-- A step taken for every item succeeds exactly on the list of what it gives for each, in the
same order. The induction is on the items; a failing head leaves nothing to compare. -/
theorem mapM_eq_ok_iff (step : α → Except fault β) (items : List α) (results : List β) :
    items.mapM step = .ok results ↔
      List.Forall₂ (fun item result => step item = .ok result) items results := by
  induction items generalizing results with
  | nil => cases results <;> simp [pure, Except.pure]
  | cons item rest inductionHypothesis =>
    rw [List.mapM_cons, bind_eq_ok_iff, List.forall₂_cons_left_iff]
    constructor
    · rintro ⟨result, stepped, continued⟩
      obtain ⟨others, remaining, returned⟩ := (bind_eq_ok_iff _ _ _).mp continued
      cases returned
      exact ⟨result, others, stepped, (inductionHypothesis others).mp remaining, rfl⟩
    · rintro ⟨result, others, stepped, remaining, rfl⟩
      refine ⟨result, stepped, ?_⟩
      rw [(inductionHypothesis others).mpr remaining]
      rfl

/-- A step that succeeds on every item succeeds on the list. -/
theorem mapM_eq_map {step : α → Except fault β} {value : α → β} {items : List α}
    (each : ∀ item ∈ items, step item = .ok (value item)) :
    items.mapM step = .ok (items.map value) := by
  rw [mapM_eq_ok_iff, List.forall₂_map_right_iff, List.forall₂_same]
  exact each

/-- A step can be taken for all items exactly when it can be taken for each. -/
theorem exists_mapM_eq_ok_iff (step : α → Except fault β) (items : List α) :
    (∃ results, items.mapM step = .ok results) ↔
      ∀ item ∈ items, ∃ result, step item = .ok result := by
  induction items with
  | nil => simp [pure, Except.pure]
  | cons item rest inductionHypothesis =>
    rw [List.forall_mem_cons, ← inductionHypothesis]
    simp only [mapM_eq_ok_iff, List.forall₂_cons_left_iff]
    constructor
    · rintro ⟨_, result, others, stepped, remaining, rfl⟩
      exact ⟨⟨result, stepped⟩, others, remaining⟩
    · rintro ⟨⟨result, stepped⟩, others, remaining⟩
      exact ⟨_, result, others, stepped, remaining, rfl⟩

/-- The fault of an outcome, if it failed. -/
def fault? : Except fault α → Option fault
  | .ok _ => none
  | .error cause => some cause

/-- An outcome has a fault exactly when it failed for it. -/
theorem fault?_eq_some_iff (outcome : Except fault α) (cause : fault) :
    fault? outcome = some cause ↔ outcome = .error cause := by
  cases outcome with
  | error other => simp [fault?]
  | ok value => simp [fault?]

/-- Of two steps in a row, the fault of the first is reported in preference to that of the second.
-/
theorem fault?_bind {first : Except fault α} {next : α → Except fault β} (later : Option fault)
    (continues : ∀ value, fault? (next value) = later) :
    fault? (first >>= next) = (fault? first).or later := by
  cases first with
  | error cause => rfl
  | ok value => exact continues value

/-- A step taken for every item fails with the fault of the first item on which it fails. -/
theorem fault?_mapM (step : α → Except fault β) (items : List α) :
    fault? (items.mapM step) = items.findSome? fun item => fault? (step item) := by
  induction items with
  | nil => rfl
  | cons item rest inductionHypothesis =>
    have others : ∀ result, fault? (do
        let results ← rest.mapM step
        pure (result :: results)) = rest.findSome? fun item => fault? (step item) := by
      intro result
      rw [fault?_bind none fun _ => rfl, Option.or_none, inductionHypothesis]
    rw [List.mapM_cons, fault?_bind _ others, List.findSome?_cons]
    cases fault? (step item) <;> rfl

/-- An outcome is a value exactly when it is no failure. -/
theorem exists_ok_iff (outcome : Except fault α) :
    (∃ value, outcome = .ok value) ↔ ∀ cause, outcome ≠ .error cause := by
  cases outcome with
  | error cause => simp
  | ok value => simp

/-- An outcome is a failure exactly when a condition holds, and then for a certain cause. -/
def FailsIff (outcome : Except fault α) (cause : fault) (condition : Prop) : Prop :=
  ∀ other, outcome = .error other ↔ other = cause ∧ condition

namespace FailsIff

variable {outcome : Except fault α} {cause : fault} {condition : Prop}

/-- The condition may be put in other words. -/
theorem congr {reworded : Prop} (fails : FailsIff outcome cause condition)
    (same : condition ↔ reworded) : FailsIff outcome cause reworded :=
  fun other => (fails other).trans (and_congr_right fun _ => same)

/-- A value is no failure where the condition does not hold. -/
theorem of_ok (value : α) (spared : ¬condition) : FailsIff (.ok value) cause condition := by
  intro other
  simp only [reduceCtorEq, spared, and_false]

/-- A failure for the cause is one where the condition holds. -/
theorem of_error (holds : condition) :
    FailsIff (.error cause : Except fault α) cause condition := by
  intro other
  rw [Except.error.injEq, and_iff_left holds, eq_comm]

/-- A value is never a failure. -/
theorem ok (value : α) : FailsIff (.ok value) cause False := of_ok value id

/-- A value that is given out only where a requirement is met is refused where it is not. -/
theorem of_require (required : Prop) [Decidable required] (value : α) :
    FailsIff (if required then .ok value else .error cause) cause ¬required := by
  by_cases met : required
  · rw [if_pos met]
    exact of_ok value (not_not_intro met)
  · rw [if_neg met]
    exact of_error met

/-- An outcome under a condition that fails is a failure for the cause. -/
theorem eq_error (fails : FailsIff outcome cause condition) (holds : condition) :
    outcome = .error cause :=
  (fails cause).mpr ⟨rfl, holds⟩

/-- An outcome is a value exactly when the condition does not hold. -/
theorem exists_ok_iff (fails : FailsIff outcome cause condition) :
    (∃ value, outcome = .ok value) ↔ ¬condition := by
  rw [Outcome.exists_ok_iff]
  constructor
  · intro succeeds holds
    exact succeeds cause (fails.eq_error holds)
  · intro spared other failed
    exact spared ((fails other).mp failed).2

/-- Two steps that fail for the same cause fail for it, one after the other, when either does. -/
theorem bind {next : α → Except fault β} {later : Prop} (fails : FailsIff outcome cause condition)
    (continues : ∀ value, outcome = .ok value → FailsIff (next value) cause later) :
    FailsIff (outcome >>= next) cause (condition ∨ later) := by
  cases outcome with
  | error other =>
    obtain ⟨rfl, holds⟩ := (fails other).mp rfl
    intro reported
    change Except.error other = Except.error reported ↔ _
    rw [Except.error.injEq, eq_comm (a := other), and_iff_left (Or.inl holds)]
  | ok value =>
    have spared : ¬condition := fails.exists_ok_iff.mp ⟨value, rfl⟩
    exact (continues value rfl).congr (or_iff_right spared).symm

/-- Of two steps that fail for causes of their own, the second is asked only where the first does
not fail. -/
theorem bind_eq_error_iff {next : α → Except fault β} {laterCause : fault} {later : Prop}
    (fails : FailsIff outcome cause condition)
    (continues : ∀ value, outcome = .ok value → FailsIff (next value) laterCause later)
    (other : fault) :
    outcome >>= next = .error other ↔
      other = cause ∧ condition ∨ other = laterCause ∧ ¬condition ∧ later := by
  cases outcome with
  | error reported =>
    obtain ⟨rfl, holds⟩ := (fails reported).mp rfl
    change Except.error reported = Except.error other ↔ _
    simp only [Except.error.injEq, holds, and_true, not_true, false_and, and_false, or_false,
      eq_comm]
  | ok value =>
    have spared : ¬condition := fails.exists_ok_iff.mp ⟨value, rfl⟩
    simp only [spared, and_false, not_false_eq_true, true_and, false_or]
    exact continues value rfl other

/-- What is returned of a value behind a step changes nothing about its failures. -/
theorem map {change : α → β} (fails : FailsIff outcome cause condition) :
    FailsIff (outcome >>= fun value => pure (change value)) cause condition :=
  (fails.bind fun value _ => ok (change value)).congr (or_iff_left id)

/-- A step that fails for one cause on each item fails for it on the list when it does on some
item. -/
theorem mapM {step : α → Except fault β} {items : List α} {fails : α → Prop}
    (each : ∀ item ∈ items, FailsIff (step item) cause (fails item)) :
    FailsIff (items.mapM step) cause (∃ item ∈ items, fails item) := by
  induction items with
  | nil =>
    apply of_ok
    rintro ⟨item, member, _⟩
    cases member
  | cons item rest inductionHypothesis =>
    rw [List.forall_mem_cons] at each
    rw [List.mapM_cons]
    apply (each.1.bind fun result _ => (inductionHypothesis each.2).map).congr
    simp only [List.mem_cons, exists_eq_or_imp]

end FailsIff

end Transact.Outcome

/-- Where items are related one by one, every one of the second list has one in the first. -/
theorem Transact.exists_related_of_mem {α β : Type} {related : α → β → Prop} {items : List α}
    {others : List β} (beside : List.Forall₂ related items others) {other : β}
    (member : other ∈ others) : ∃ item ∈ items, related item other := by
  induction beside with
  | nil => cases member
  | cons here _ inductionHypothesis =>
    obtain rfl | later := List.mem_cons.mp member
    · exact ⟨_, List.mem_cons_self, here⟩
    · obtain ⟨item, inItems, holds⟩ := inductionHypothesis later
      exact ⟨item, List.mem_cons_of_mem _ inItems, holds⟩

/-- Where items are related one by one, an item is related to the one at the same place. -/
theorem Transact.exists_related_of_getElem? {α β : Type} {related : α → β → Prop} {items : List α}
    {others : List β} (beside : List.Forall₂ related items others) {place : Nat} {item : α}
    (found : items[place]? = some item) :
    ∃ other, others[place]? = some other ∧ related item other := by
  obtain ⟨inside, rfl⟩ := List.getElem?_eq_some_iff.mp found
  have bounded : place < others.length := beside.length_eq ▸ inside
  exact ⟨others[place], List.getElem?_eq_getElem bounded, beside.get inside bounded⟩
