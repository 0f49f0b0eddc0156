import Transact.Proofs.CanonicalReading

/-!
# Incomplete input and bad input

A reader that fails for lack of bytes should fail so only where more bytes can help, and a reader
that refuses its input should refuse it whatever may follow (`Reader.Discerning`). Readers in a row
are judged by their parts as long as each of them takes no account of what stands behind the value
it takes (`Reader.Local`), which is so wherever what is read and what is written agree
(`Reader.Canonical.isLocal`).

Not every reader can promise that more bytes help: the letters of a text may be spoiled before the
last of them has come. What it can still promise is that only a lack of bytes is answered otherwise
when more of them follow (`Reader.Settled`).

The main statements: readers in a row discern, or are settled, when each does or is
(`Reader.Discerning.bind`, `Reader.Settled.bind`), so do and are readers of lists
(`Reader.discerning_many`, `Reader.settled_many`) and of compact lengths
(`CompactLength.discerning_decode`), and a settled reader that reads a value from certain bytes
fails for lack of bytes on every shorter front of them (`Reader.Settled.error_of_front`).
-/

namespace Transact

namespace Reader

variable {ε α β : Type} {read : Reader ε α} {short : ε → Prop}

/-- What stands behind a value makes no difference to it. -/
structure Local (read : Reader ε α) : Prop where
  /-- A value that is taken is taken whatever follows, and then that is left as well. -/
  taken : ∀ {input : Bytes} {value : α} {rest : Bytes}, read input = .ok (value, rest) →
    ∀ tail, read (input ++ tail) = .ok (value, rest ++ tail)

/-- Bad input is refused with the same fault whatever follows. The other faults are those of
incomplete input. -/
structure Firm (short : ε → Prop) (read : Reader ε α) : Prop where
  /-- A fault that is not for lack of bytes stays. -/
  refused : ∀ {input : Bytes} {fault : ε}, read input = .error fault → ¬short fault →
    ∀ tail, read (input ++ tail) = .error fault

/-- What stands behind an input matters only where the reader fails for lack of bytes. -/
structure Settled (short : ε → Prop) (read : Reader ε α) : Prop extends Local read, Firm short read

/-- A reader tells incomplete input, for which it has faults of its own, from bad input. -/
structure Discerning (short : ε → Prop) (read : Reader ε α) : Prop where
  /-- Bad input is refused with the same fault whatever follows. -/
  refused : ∀ {input : Bytes} {fault : ε}, read input = .error fault → ¬short fault →
    ∀ tail, read (input ++ tail) = .error fault
  /-- Incomplete input can be completed. -/
  completed : ∀ {input : Bytes} {fault : ε}, read input = .error fault → short fault →
    ∃ tail value, read (input ++ tail) = .ok (value, [])
  /-- Some input is read as a whole, so there is something to complete an input with. -/
  whole : ∃ input value, read input = .ok (value, [])

/-- A discerning reader is firm. -/
theorem Discerning.firm (discerning : Discerning short read) : Firm short read where
  refused := discerning.refused

/-- A discerning reader that does not look behind what it takes is settled. -/
theorem Discerning.settled (discerning : Discerning short read) (fixed : Local read) :
    Settled short read where
  toLocal := fixed
  toFirm := discerning.firm

/-- A reader that takes values only from bytes they are read from does not look behind them. -/
theorem Canonical.isLocal {Written : α → Bytes → Prop} (canonical : Canonical read Written)
    (reads : ∀ value bytes, Written value bytes → Reads read bytes value) : Local read where
  taken := by
    intro input value rest taken tail
    obtain ⟨bytes, written, rfl⟩ := canonical taken
    rw [List.append_assoc]
    exact reads value bytes written (rest ++ tail)

/-- Two readers in a row do not look behind what they take when neither does. -/
theorem Local.bind {next : α × Bytes → Except ε (β × Bytes)} (first : Local read)
    (second : ∀ value, Local fun rest => next (value, rest)) :
    Local fun input => read input >>= next where
  taken := by
    intro input result left taken tail
    obtain ⟨⟨value, rest⟩, begun, continued⟩ := (Outcome.bind_eq_ok_iff _ _ _).mp taken
    rw [first.taken begun tail]
    exact (second value).taken continued tail

/-- A reader that takes nothing does not look at its input at all. -/
theorem local_pure (value : α) :
    Local fun input => (pure (value, input) : Except ε (α × Bytes)) where
  taken := by
    intro input result rest taken tail
    cases taken
    rfl

/-- A list is taken without a look behind it when each of its items is. -/
theorem local_many (fixed : Local read) (count : Nat) : Local (many read count) where
  taken := by
    induction count with
    | zero =>
      intro input list rest taken tail
      cases taken
      rfl
    | succ count inductionHypothesis =>
      intro input list rest taken tail
      rw [← map_toList_eq_ok_iff, many_succ] at taken ⊢
      cases first : read input with
      | error fault =>
        rw [first] at taken
        cases taken
      | ok answer =>
        obtain ⟨item, middle⟩ := answer
        rw [first] at taken
        obtain ⟨⟨others, last⟩, continued, returned⟩ := (Outcome.map_eq_ok_iff _ _ _).mp taken
        obtain ⟨items, rfl⟩ := Prod.mk.inj returned
        simp only [fixed.taken first tail, inductionHypothesis continued tail, Except.map, items]

/-- Two readers in a row are firm when both are and the first does not look behind what it takes. -/
theorem Firm.bind {next : α × Bytes → Except ε (β × Bytes)} (first : Firm short read)
    (fixed : Local read) (second : ∀ value, Firm short fun rest => next (value, rest)) :
    Firm short fun input => read input >>= next where
  refused := by
    intro input fault failed bad tail
    cases taken : read input with
    | error cause =>
      rw [taken] at failed
      cases failed
      rw [first.refused taken bad tail]
      rfl
    | ok answer =>
      obtain ⟨value, rest⟩ := answer
      rw [taken] at failed
      rw [fixed.taken taken tail]
      exact (second value).refused failed bad tail

/-- Two readers in a row are settled when both are. -/
theorem Settled.bind {next : α × Bytes → Except ε (β × Bytes)} (first : Settled short read)
    (second : ∀ value, Settled short fun rest => next (value, rest)) :
    Settled short fun input => read input >>= next where
  toLocal := first.toLocal.bind fun value => (second value).toLocal
  toFirm := first.toFirm.bind first.toLocal fun value => (second value).toFirm

/-- A reader that takes nothing is settled. -/
theorem settled_pure (short : ε → Prop) (value : α) :
    Settled short fun input => (pure (value, input) : Except ε (α × Bytes)) where
  toLocal := local_pure value
  refused := nofun

/-- A reader that refuses every input is settled. -/
theorem settled_error (short : ε → Prop) (fault : ε) :
    Settled short fun _ => (.error fault : Except ε (α × Bytes)) where
  taken := nofun
  refused failed _ _ := failed

/-- A choice between two settled readers that does not depend on the input is settled. -/
theorem Settled.ite {condition : Prop} [Decidable condition] {other : Reader ε α}
    (settled : Settled short read) (otherSettled : Settled short other) :
    Settled short fun input => if condition then read input else other input := by
  by_cases holds : condition
  · simpa only [holds, if_true] using settled
  · simpa only [holds, if_false] using otherSettled

/-- Making something of the value keeps a reader settled. -/
theorem Settled.map (make : α → β) (settled : Settled short read) :
    Settled short fun input => (read input).map fun answer => (make answer.1, answer.2) := by
  have asBind : (fun input => (read input).map fun answer => (make answer.1, answer.2)) =
      fun input => read input >>= fun answer => pure (make answer.1, answer.2) := by
    funext input
    cases read input <;> rfl
  rw [asBind]
  exact settled.bind fun value => settled_pure short (make value)

/-- Two readers in a row discern when both do. Where the first runs out of bytes, what completes its
input is followed by an input of the second. -/
theorem Discerning.bind {next : α × Bytes → Except ε (β × Bytes)}
    (first : Discerning short read) (fixed : Local read)
    (second : ∀ value, Discerning short fun rest => next (value, rest)) :
    Discerning short fun input => read input >>= next where
  refused := (first.firm.bind fixed fun value => (second value).firm).refused
  completed := by
    intro input fault failed incomplete
    cases taken : read input with
    | error cause =>
      rw [taken] at failed
      cases failed
      obtain ⟨tail, value, completed⟩ := first.completed taken incomplete
      obtain ⟨behind, result, whole⟩ := (second value).whole
      refine ⟨tail ++ behind, result, ?_⟩
      rw [← List.append_assoc, fixed.taken completed behind]
      exact whole
    | ok answer =>
      obtain ⟨value, rest⟩ := answer
      rw [taken] at failed
      obtain ⟨tail, result, completed⟩ := (second value).completed failed incomplete
      refine ⟨tail, result, ?_⟩
      rw [fixed.taken taken tail]
      exact completed
  whole := by
    obtain ⟨input, value, whole⟩ := first.whole
    obtain ⟨behind, result, wholeBehind⟩ := (second value).whole
    refine ⟨input ++ behind, result, ?_⟩
    rw [fixed.taken whole behind]
    exact wholeBehind

/-- A reader that takes nothing never fails. -/
theorem discerning_pure (short : ε → Prop) (value : α) :
    Discerning short fun input => (pure (value, input) : Except ε (α × Bytes)) where
  refused := nofun
  completed := nofun
  whole := ⟨[], value, rfl⟩

/-- A reader that fails with the same faults on the same inputs, and reads the same inputs as a
whole, discerns as well. -/
theorem Discerning.congr {other : Reader ε β} (discerning : Discerning short read)
    (fails : ∀ input fault, other input = .error fault ↔ read input = .error fault)
    (spans : ∀ input, (∃ value, other input = .ok (value, [])) ↔
      ∃ value, read input = .ok (value, [])) : Discerning short other where
  refused := by
    intro input fault failed bad tail
    exact (fails _ _).mpr (discerning.refused ((fails _ _).mp failed) bad tail)
  completed := by
    intro input fault failed incomplete
    obtain ⟨tail, completed⟩ := discerning.completed ((fails _ _).mp failed) incomplete
    exact ⟨tail, (spans _).mpr completed⟩
  whole := by
    obtain ⟨input, whole⟩ := discerning.whole
    exact ⟨input, (spans _).mpr whole⟩

/-- Making something of the value does not change how a reader fails. -/
theorem discerning_map_iff (make : α → β) :
    Discerning short (fun input => (read input).map fun answer => (make answer.1, answer.2)) ↔
      Discerning short read := by
  have fails : ∀ input fault, (read input).map (fun answer => (make answer.1, answer.2)) =
      .error fault ↔ read input = .error fault := fun input fault =>
    Outcome.map_eq_error_iff _ (read input) fault
  have spans : ∀ input, (∃ result, (read input).map (fun answer => (make answer.1, answer.2)) =
      .ok (result, [])) ↔ ∃ value, read input = .ok (value, []) := by
    intro input
    cases read input <;> simp [Except.map, Prod.ext_iff]
  constructor
  · intro discerning
    exact discerning.congr (fun input fault => (fails input fault).symm)
      fun input => (spans input).symm
  · intro discerning
    exact discerning.congr fails spans

/-- Renaming faults keeps a reader firm when no lack of bytes gets another name. -/
theorem Firm.mapError {δ : Type} {renamedShort : δ → Prop} {rename : ε → δ}
    (firm : Firm short read) (faithful : ∀ fault, short fault → renamedShort (rename fault)) :
    Firm renamedShort fun input => (read input).mapError rename where
  refused := by
    intro input renamed failed bad tail
    cases taken : read input with
    | ok answer => simp [taken, Except.mapError] at failed
    | error fault =>
      rw [taken] at failed
      cases failed
      rw [firm.refused taken (mt (faithful fault) bad) tail]
      rfl

/-- Renaming faults keeps a reader settled when no lack of bytes gets another name. -/
theorem Settled.mapError {δ : Type} {renamedShort : δ → Prop} {rename : ε → δ}
    (settled : Settled short read) (faithful : ∀ fault, short fault → renamedShort (rename fault)) :
    Settled renamedShort fun input => (read input).mapError rename where
  toFirm := settled.toFirm.mapError faithful
  taken := by
    intro input value rest taken tail
    rw [Outcome.mapError_eq_ok_iff] at taken ⊢
    exact settled.taken taken tail

/-- Renaming faults keeps incomplete and bad input apart when the names do. -/
theorem Discerning.mapError {δ : Type} {renamedShort : δ → Prop} {rename : ε → δ}
    (discerning : Discerning short read)
    (faithful : ∀ fault, renamedShort (rename fault) ↔ short fault) :
    Discerning renamedShort fun input => (read input).mapError rename where
  refused := (discerning.firm.mapError fun fault => (faithful fault).mpr).refused
  completed := by
    intro input renamed failed incomplete
    cases taken : read input with
    | ok answer => simp [taken, Except.mapError] at failed
    | error fault =>
      rw [taken] at failed
      cases failed
      obtain ⟨tail, value, completed⟩ :=
        discerning.completed taken ((faithful fault).mp incomplete)
      exact ⟨tail, value, by rw [completed]; rfl⟩
  whole := by
    obtain ⟨input, value, whole⟩ := discerning.whole
    exact ⟨input, value, by rw [whole]; rfl⟩

/-- Where some input that begins with a byte is read as a whole, a discerning reader still discerns
when it has been given that byte. -/
theorem Discerning.behind {first : UInt8} (discerning : Discerning short read)
    (whole : ∃ others value, read (first :: others) = .ok (value, [])) :
    Discerning short fun others => read (first :: others) where
  refused failed bad tail := discerning.refused failed bad tail
  completed failed incomplete := discerning.completed failed incomplete
  whole := whole

variable {fault : ε}

/-- A reader discerns whose only fault is that fewer bytes are left than it takes, as long as it
takes any bytes of that number. -/
theorem discerning_of_length (count : Nat) (incomplete : short fault)
    (fails : ∀ input cause, read input = .error cause ↔ input.length < count ∧ fault = cause)
    (spans : ∀ input : Bytes, input.length = count → ∃ value, read input = .ok (value, [])) :
    Discerning short read where
  refused := by
    intro input cause failed bad
    obtain ⟨_, rfl⟩ := (fails input cause).mp failed
    exact absurd incomplete bad
  completed := by
    intro input cause failed _
    have enough : (input ++ List.replicate (count - input.length) 0).length = count := by
      have ends := ((fails input cause).mp failed).1
      rw [List.length_append, List.length_replicate]
      omega
    exact ⟨_, spans _ enough⟩
  whole := ⟨_, spans (List.replicate count 0) List.length_replicate⟩

/-- A run of bytes is read discerningly. -/
theorem discerning_bytes (incomplete : short fault) (count : Nat) :
    Discerning short (Reader.bytes fault count) := by
  refine discerning_of_length count incomplete ?_ ?_
  · intro input cause
    rw [← Bytes.cut?_eq_none_iff, Reader.bytes]
    cases Bytes.cut? count input <;> simp
  · rintro input rfl
    exact ⟨input, by simpa using reads_bytes fault input []⟩

/-- A block is read discerningly. -/
theorem discerning_block (incomplete : short fault) (n : Nat) :
    Discerning short (Reader.block fault n) := by
  refine discerning_of_length n incomplete ?_ ?_
  · intro input cause
    unfold Reader.block
    split
    · rename_i fits
      rw [List.length_take] at fits
      simp only [reduceCtorEq, false_iff, not_and]
      omega
    · rename_i unfit
      rw [List.length_take] at unfit
      simp only [Except.error.injEq, iff_and_self]
      omega
  · intro input spans
    exact ⟨⟨input, spans⟩, by simpa using reads_block fault ⟨input, spans⟩ []⟩

/-- A byte is read discerningly. -/
theorem discerning_byte (incomplete : short fault) :
    Discerning short (Reader.byte fault) := by
  refine discerning_of_length 1 incomplete ?_ ?_
  · intro input cause
    cases input <;> simp [Reader.byte]
  · intro input spans
    obtain ⟨byte, rfl⟩ := List.length_eq_one_iff.mp spans
    exact ⟨byte, rfl⟩

/-- Taking a list of one item more, as a plain list, is taking an item and then the others. -/
theorem map_toList_many_succ (read : Reader ε α) (count : Nat) :
    (fun input => (many read (count + 1) input).map fun answer => (answer.1.toList, answer.2)) =
      fun input => read input >>= fun taken =>
        (many read count taken.2).map fun answer => (taken.1 :: answer.1.toList, answer.2) := by
  funext input
  rw [many_succ]
  cases read input with
  | error fault => rfl
  | ok taken => rfl

/-- A list is read discerningly when its items are. -/
theorem discerning_many (discerning : Discerning short read) (fixed : Local read) (count : Nat) :
    Discerning short (many read count) := by
  rw [← discerning_map_iff FixedList.toList]
  induction count with
  | zero => exact discerning_pure short []
  | succ count inductionHypothesis =>
    rw [map_toList_many_succ]
    refine discerning.bind fixed fun item => ?_
    exact (discerning_map_iff fun list => item :: list.toList).mpr
      ((discerning_map_iff FixedList.toList).mp inductionHypothesis)

/-- Making something of the value does not change whether a reader is firm. -/
theorem firm_map_iff (make : α → β) :
    Firm short (fun input => (read input).map fun answer => (make answer.1, answer.2)) ↔
      Firm short read := by
  have fails : ∀ input fault, (read input).map (fun answer => (make answer.1, answer.2)) =
      .error fault ↔ read input = .error fault := fun input fault =>
    Outcome.map_eq_error_iff _ (read input) fault
  constructor
  · intro firm
    exact ⟨fun failed bad tail => (fails _ _).mp (firm.refused ((fails _ _).mpr failed) bad tail)⟩
  · intro firm
    exact ⟨fun failed bad tail => (fails _ _).mpr (firm.refused ((fails _ _).mp failed) bad tail)⟩

/-- Reading a list is settled when reading its items is. -/
theorem settled_many (settled : Settled short read) (count : Nat) :
    Settled short (many read count) where
  toLocal := local_many settled.toLocal count
  toFirm := by
    rw [← firm_map_iff FixedList.toList]
    induction count with
    | zero => exact (settled_pure short []).toFirm
    | succ count inductionHypothesis =>
      rw [map_toList_many_succ]
      refine settled.toFirm.bind settled.toLocal fun item => ?_
      exact (firm_map_iff fun list => item :: list.toList).mpr
        ((firm_map_iff FixedList.toList).mp inductionHypothesis)

/-- On a shorter front of the bytes that a value is read from, a settled reader runs out of bytes:
it can neither take the value there nor refuse it. -/
theorem Settled.error_of_front (settled : Settled short read)
    {front behind : Bytes} {value : α} (reads : Reads read (front ++ behind) value)
    (shorter : behind ≠ []) : ∃ fault, read front = .error fault ∧ short fault := by
  have taken := reads []
  rw [List.append_nil] at taken
  cases failed : read front with
  | ok answer =>
    obtain ⟨other, rest⟩ := answer
    rw [settled.taken failed behind] at taken
    have nothing : rest ++ behind = [] := (Prod.mk.inj (Except.ok.inj taken)).2
    exact absurd (List.append_eq_nil_iff.mp nothing).2 shorter
  | error fault =>
    refine ⟨fault, rfl, ?_⟩
    by_contra bad
    rw [settled.refused failed bad behind] at taken
    cases taken

end Reader

namespace CompactLength

/-- A length that is refused is refused at a byte of it, so nothing behind matters. -/
theorem decodeFrom_append_of_error {position value : Nat} {input : Bytes} {fault : Error}
    (failed : decodeFrom position value input = .error fault) (bad : fault ≠ .insufficientData)
    (tail : Bytes) : decodeFrom position value (input ++ tail) = .error fault := by
  induction input generalizing position value with
  | nil => exact absurd (Except.error.inj failed).symm bad
  | cons byte rest inductionHypothesis =>
    rw [List.cons_append, decodeFrom]
    rw [decodeFrom] at failed
    cases visited : visit position value byte with
    | error cause =>
      rw [visited] at failed
      exact failed
    | ok progress =>
      cases progress with
      | done total => simp [visited] at failed
      | more total =>
        simp only [visited] at failed
        exact inductionHypothesis failed

/-- A length that breaks off is completed by a last byte of one. The number so far is below the
weight of that byte, and even the third one leaves it within the limit. -/
theorem exists_decodeFrom_append {position value : Nat} {input : Bytes}
    (early : position < maximumSize) (small : value < Nat.pow 128 position)
    (failed : decodeFrom position value input = .error .insufficientData) :
    ∃ tail total, decodeFrom position value (input ++ tail) = .ok (total, []) := by
  induction input generalizing position value with
  | nil =>
    have within : value + 1 * Nat.pow 128 position ≤ maximum := by
      have weight : Nat.pow 128 position ≤ Nat.pow 128 2 :=
        Nat.pow_le_pow_right (by decide) (Nat.le_of_lt_succ early)
      have limit : Nat.pow 128 2 + Nat.pow 128 2 ≤ maximum := by decide
      omega
    have positive : 1 = 0 → position = 0 := nofun
    exact ⟨[UInt8.ofNat 1], _, decodeFrom_done (by decide) positive within []⟩
  | cons byte rest inductionHypothesis =>
    rw [decodeFrom] at failed
    cases visited : visit position value byte with
    | error cause =>
      rw [visited] at failed
      cases failed
      exact absurd visited visit_ne_insufficientData
    | ok progress =>
      cases progress with
      | done total => simp [visited] at failed
      | more total =>
        simp only [visited] at failed
        obtain ⟨_, next, total_eq, _⟩ := eq_of_visit_more visited
        have below : total < Nat.pow 128 (position + 1) := by
          have low : byte.toNat % 128 ≤ 127 := by omega
          have scaled := Nat.mul_le_mul_right (Nat.pow 128 position) low
          have weight : Nat.pow 128 (position + 1) = Nat.pow 128 position * 128 := rfl
          omega
        obtain ⟨tail, result, completed⟩ := inductionHypothesis next below failed
        refine ⟨tail, result, ?_⟩
        rw [List.cons_append, decodeFrom, visited]
        exact completed

/-- Lengths are read discerningly. -/
theorem discerning_decode : Reader.Discerning (· = .insufficientData) decode where
  refused failed bad := decodeFrom_append_of_error failed bad
  completed := by
    rintro input fault failed rfl
    exact exists_decodeFrom_append (by decide) (by decide) failed
  whole := ⟨[0], 0, rfl⟩

end CompactLength

end Transact
