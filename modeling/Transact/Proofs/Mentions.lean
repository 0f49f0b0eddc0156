import Mathlib.Data.List.Induction
import Mathlib.Data.List.Nodup
import Transact.Compile.KeyTable

/-!
# What instructions ask of each key

The demands on a key are defined here from the instructions and the payer alone, without a table:
a key must sign when some account that names it says so, is written when some account that names it
says so, and is a program when some instruction runs it. The payer signs and is written. The zero
address never pays.

The main statement, `entries_ofInstructions`, says that the table of keys which compilation collects
holds each mentioned key once, in the order of first mention, with exactly these demands.
-/

namespace Transact

namespace Mentions

/-- A key pays when it is the given payer and not the zero address. -/
def Pays (payer : Option Address) (key : Address) : Prop := payer = some key ∧ key ≠ Address.zero

instance (payer : Option Address) (key : Address) : Decidable (Pays payer key) :=
  inferInstanceAs (Decidable (_ ∧ _))

/-- Whether some instruction runs a key. -/
def isProgram (instructions : List Instruction) (key : Address) : Bool :=
  instructions.any fun instruction => instruction.programId == key

/-- Whether some account of some instruction names a key and has a permission. -/
def isAsked (permission : AccountMeta → Bool) (instructions : List Instruction) (key : Address) :
    Bool :=
  instructions.any fun instruction =>
    instruction.accounts.any fun account => account.address == key && permission account

/-- Whether a key must sign: it pays, or some account that names it signs. -/
def isSigner (payer : Option Address) (instructions : List Instruction) (key : Address) : Bool :=
  decide (Pays payer key) || isAsked AccountMeta.isSigner instructions key

/-- Whether a key may be changed: it pays, or some account that names it is writable. -/
def isWritable (payer : Option Address) (instructions : List Instruction) (key : Address) : Bool :=
  decide (Pays payer key) || isAsked AccountMeta.isWritable instructions key

/-- A key is mentioned when it pays, is run, or is named by an account. -/
def IsMentioned (payer : Option Address) (instructions : List Instruction) (key : Address) : Prop :=
  Pays payer key ∨ ∃ instruction ∈ instructions,
    instruction.programId = key ∨ ∃ account ∈ instruction.accounts, account.address = key

/-- Every mention of a key by an instruction, in order: of each instruction the program, then the
accounts. -/
def ofInstructions (instructions : List Instruction) : List Address :=
  instructions.flatMap fun instruction =>
    instruction.programId :: instruction.accounts.map AccountMeta.address

/-- The mentioned keys without repeats: the payer, then the others in the order of first mention. -/
def order (payer : Option Address) (instructions : List Instruction) : List Address :=
  (KeyTable.effectivePayer payer).toList ++
    (ofInstructions instructions).eraseDups.filter fun key => !decide (Pays payer key)

/-- All demands on a key, in the form in which a table of keys records them. -/
def use (payer : Option Address) (instructions : List Instruction) (key : Address) : KeyUse where
  isSigner := isSigner payer instructions key
  isWritable := isWritable payer instructions key
  isInvoked := isProgram instructions key

/-- A payer takes effect exactly when it pays. -/
theorem effectivePayer_eq_some_iff (payer : Option Address) (key : Address) :
    KeyTable.effectivePayer payer = some key ↔ Pays payer key := by
  simp [KeyTable.effectivePayer, Pays, Address.isZero, Option.filter_eq_some_iff]

/-- A key is mentioned exactly when it pays or stands among the mentions of the instructions. -/
theorem isMentioned_iff (payer : Option Address) (instructions : List Instruction)
    (key : Address) :
    IsMentioned payer instructions key ↔ Pays payer key ∨ key ∈ ofInstructions instructions := by
  simp only [IsMentioned, ofInstructions, List.mem_flatMap, List.mem_cons, List.mem_map,
    eq_comm (a := key)]

end Mentions

section FirstMentions

variable {α : Type} [DecidableEq α]

/-- Only an item that is new comes to the end of the items without repeats. -/
theorem eraseDups_concat (items : List α) (item : α) :
    (items ++ [item]).eraseDups =
      if item ∈ items then items.eraseDups else items.eraseDups ++ [item] := by
  rw [List.eraseDups_append]
  by_cases known : item ∈ items
  · simp [known, List.removeAll]
  · simp [known, List.removeAll, List.eraseDups_cons]

/-- No item is left twice. -/
theorem nodup_eraseDups (items : List α) : items.eraseDups.Nodup := by
  induction items using List.reverseRecOn with
  | nil => simp
  | append_singleton items item inductionHypothesis =>
    rw [eraseDups_concat]
    by_cases known : item ∈ items
    · simpa only [known, if_true] using inductionHypothesis
    · simp only [known, if_false, List.nodup_append, inductionHypothesis, true_and,
        List.mem_singleton, forall_eq, List.mem_eraseDups]
      refine ⟨List.nodup_singleton item, ?_⟩
      rintro other member rfl
      exact known member

end FirstMentions

namespace Mentions

/-- The mentioned keys are ordered without repeats. -/
theorem nodup_order (payer : Option Address) (instructions : List Instruction) :
    (order payer instructions).Nodup := by
  apply List.Nodup.append
  · cases KeyTable.effectivePayer payer <;> simp
  · exact (nodup_eraseDups _).filter _
  · intro key paying other
    rw [Option.mem_toList, effectivePayer_eq_some_iff] at paying
    simpa [paying] using (List.mem_filter.mp other).2

/-- The ordered keys are exactly those mentioned. -/
theorem mem_order_iff {payer : Option Address} {instructions : List Instruction} {key : Address} :
    key ∈ order payer instructions ↔ IsMentioned payer instructions key := by
  rw [isMentioned_iff, order, List.mem_append, Option.mem_toList, effectivePayer_eq_some_iff,
    List.mem_filter, List.mem_eraseDups]
  by_cases pays : Pays payer key <;> simp [pays]

end Mentions

namespace KeyTable

/-- What a list of demands asks of one key, all together. -/
def asked (mentioned : List (Address × KeyUse)) (key : Address) : KeyUse where
  isSigner := mentioned.any fun (other, use) => other == key && use.isSigner
  isWritable := mentioned.any fun (other, use) => other == key && use.isWritable
  isInvoked := mentioned.any fun (other, use) => other == key && use.isInvoked

/-- One demand more changes what is asked of its own key and of no other. -/
theorem asked_concat (mentioned : List (Address × KeyUse)) (key : Address) (use : KeyUse) :
    asked (mentioned ++ [(key, use)]) = fun other =>
      if other = key then (asked mentioned key).merge use else asked mentioned other := by
  funext other
  by_cases same : other = key
  · subst other
    simp [asked, KeyUse.merge]
  · have different : (key == other) = false := beq_eq_false_iff_ne.mpr (Ne.symm same)
    simp [asked, same, different]

/-- Nothing is asked of a key that no demand names. -/
theorem asked_eq_of_not_mem (mentioned : List (Address × KeyUse)) (key : Address)
    (unnamed : key ∉ mentioned.map Prod.fst) : asked mentioned key = ⟨false, false, false⟩ := by
  have different : ∀ demand ∈ mentioned, (demand.1 == key) = false := by
    intro demand member
    apply beq_eq_false_iff_ne.mpr
    rintro rfl
    exact unnamed (List.mem_map_of_mem member)
  simp only [asked, KeyUse.mk.injEq, List.any_eq_false, Bool.and_eq_true, not_and]
  refine ⟨?_, ?_, ?_⟩ <;>
    exact fun demand member named => absurd named (by simp [different demand member])

/-- What is known of the keys of a list does not change with another key. -/
theorem map_ite_of_not_mem {keys : List Address} {key : Address} (absent : key ∉ keys)
    (changed : KeyUse) (known : Address → KeyUse) :
    (keys.map fun other => (other, if other = key then changed else known other)) =
      keys.map fun other => (other, known other) := by
  apply List.map_congr_left
  intro other member
  have different : other ≠ key := fun same => absent (same ▸ member)
  simp only [different, if_false]

/-- A demand on a key of the list is taken together with what is known of it. -/
theorem demand_of_mem (keys : List Address) (known : Address → KeyUse) (key : Address)
    (use : KeyUse) (unique : keys.Nodup) (member : key ∈ keys) :
    demand key use (keys.map fun other => (other, known other)) =
      keys.map fun other =>
        (other, if other = key then (known key).merge use else known other) := by
  induction keys with
  | nil => simp at member
  | cons first rest inductionHypothesis =>
    obtain ⟨absent, restUnique⟩ := List.nodup_cons.mp unique
    by_cases same : first = key
    · subst first
      simp only [List.map_cons, demand, if_true, map_ite_of_not_mem absent]
    · have inRest : key ∈ rest := (List.mem_cons.mp member).resolve_left (Ne.symm same)
      simp only [List.map_cons, demand, same, if_false, inductionHypothesis restUnique inRest]

/-- A demand on a new key goes to the end of the list. -/
theorem demand_of_not_mem (keys : List Address) (known : Address → KeyUse) (key : Address)
    (use : KeyUse) (absent : key ∉ keys) :
    demand key use (keys.map fun other => (other, known other)) =
      (keys.map fun other => (other, known other)) ++ [(key, use)] := by
  induction keys with
  | nil => rfl
  | cons first rest inductionHypothesis =>
    rw [List.mem_cons, not_or] at absent
    simp only [List.map_cons, demand, Ne.symm absent.1, if_false, inductionHypothesis absent.2,
      List.cons_append]

/-- Demands collected one after another leave each key once, in the order of the first demand on
it, with everything that is asked of it.

The induction is on the demands from the last one back, because a later demand can change what
is asked of any earlier key. -/
theorem foldl_demand (mentioned : List (Address × KeyUse)) :
    mentioned.foldl (fun entries (key, use) => demand key use entries) [] =
      (mentioned.map Prod.fst).eraseDups.map fun key => (key, asked mentioned key) := by
  induction mentioned using List.reverseRecOn with
  | nil => rfl
  | append_singleton mentioned last inductionHypothesis =>
    obtain ⟨key, use⟩ := last
    rw [List.foldl_append, inductionHypothesis, List.map_append, List.map_singleton,
      eraseDups_concat, asked_concat]
    simp only [List.foldl_cons, List.foldl_nil]
    by_cases known : key ∈ mentioned.map Prod.fst
    · rw [if_pos known]
      exact demand_of_mem _ _ key use (nodup_eraseDups _) (List.mem_eraseDups.mpr known)
    · have absent : key ∉ (mentioned.map Prod.fst).eraseDups := fun member =>
        known (List.mem_eraseDups.mp member)
      have fresh : (asked mentioned key).merge use = use := by
        simp [asked_eq_of_not_mem mentioned key known, KeyUse.merge]
      rw [if_neg known, demand_of_not_mem _ _ key use absent, List.map_append, fresh,
        map_ite_of_not_mem absent]
      simp

/-- The demands of instructions and payer name exactly the mentioned keys, in their order, with
the payer behind them. -/
theorem map_fst_mentioned (payer : Option Address) (instructions : List Instruction) :
    (instructions.flatMap references ++
      (effectivePayer payer).toList.map fun key => (key, KeyUse.paying)).map Prod.fst =
      Mentions.ofInstructions instructions ++ (effectivePayer payer).toList := by
  simp only [List.map_append, List.map_map, List.map_flatMap, references, List.map_cons,
    Mentions.ofInstructions, Function.comp_def, List.map_id']

/-- What the demands of instructions and payer ask of a key is what is defined without them. -/
theorem asked_mentioned (payer : Option Address) (instructions : List Instruction) :
    asked (instructions.flatMap references ++
      (effectivePayer payer).toList.map fun key => (key, KeyUse.paying)) =
      Mentions.use payer instructions := by
  funext key
  have paid : ((effectivePayer payer).toList.any fun other => other == key) =
      decide (Mentions.Pays payer key) := by
    rw [Bool.eq_iff_iff, decide_eq_true_iff, ← Mentions.effectivePayer_eq_some_iff]
    cases effectivePayer payer <;> simp
  simp only [asked, Mentions.use, Mentions.isSigner, Mentions.isWritable, Mentions.isAsked,
    Mentions.isProgram, references, KeyUse.mk.injEq, List.any_append, List.any_flatMap,
    List.any_cons, List.any_map, Function.comp_def, KeyUse.invoked, KeyUse.paying,
    KeyUse.ofMeta, Bool.and_true, Bool.and_false, Bool.false_or, paid]
  refine ⟨Bool.or_comm _ _, Bool.or_comm _ _, ?_⟩
  rw [Bool.eq_iff_iff]
  simp

/-- The table that compilation collects holds each mentioned key once, in the order of first
mention and the payer last, with exactly the demands on it. -/
theorem entries_ofInstructions (payer : Option Address) (instructions : List Instruction) :
    (ofInstructions payer instructions).entries =
      (Mentions.ofInstructions instructions ++ (effectivePayer payer).toList).eraseDups.map
        fun key => (key, Mentions.use payer instructions key) := by
  rw [← map_fst_mentioned, ← asked_mentioned]
  exact foldl_demand _

end KeyTable

end Transact
