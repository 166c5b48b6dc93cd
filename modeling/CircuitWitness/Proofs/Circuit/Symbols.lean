import CircuitWitness.Circuit.Symbolic
import CircuitWitness.Proofs.Circuit.Denotation

/-! # Symbols

    The symbol of a term is the decimal of its constant if it is virtual, and else what
    stands for its coefficient, the letter of wires and the index of its wire
    (`Term.symbol`).  A combination is shown by the symbols of its terms, and one
    without terms by a symbol of its own (`LinearCombination.symbols`).

    A text is there when all coefficients are in the table, and it is the text of the
    symbols.
-/

namespace CircuitWitness

variable {c : Curve} {table : CoefficientTable c}

theorem isDigit_of_mem_repr {n : Nat} {ch : Char} (h : ch ∈ n.repr.toList) :
    ch.isDigit = true := by
  rw [Nat.repr_eq_ofList_toDigits, String.toList_ofList] at h
  exact Nat.isDigit_of_mem_toDigits (by decide) (by decide) h

/-! ## Coefficients -/

namespace CoefficientTable

variable {i : CoeffId} {text : String}

/-- What stands for the constant of a virtual term. -/
def constantSymbol (table : CoefficientTable c) (i : CoeffId) : String :=
  if i = .minusOne then "-1" else (table.coefficient i).decimal

/-- What stands before the wire of a term. -/
def factorSymbol (table : CoefficientTable c) (i : CoeffId) : String :=
  if i = .one then "" else if i = .minusOne then "-" else (table.coefficient i).decimal ++ "⋅"

theorem constantText_eq_ok_iff :
    table.constantText i = .ok text ↔ i.index < table.size ∧ table.constantSymbol i = text := by
  unfold constantText constantSymbol
  split
  · rename_i hi
    have hlt : i.index < table.size := table.lt_size_of_reserved (by rw [hi]; decide)
    simp [hlt]
  · simp only [bind_eq_ok_iff, value_eq_ok_iff, pure_eq_ok_iff, and_assoc, exists_and_left,
      exists_eq_left']

theorem mem_constantSymbol {ch : Char} (h : ch ∈ (table.constantSymbol i).toList) :
    ch.isDigit = true ∨ ch = '-' := by
  unfold constantSymbol at h
  split at h
  · have hch : ch = '-' ∨ ch = '1' := by simpa using h
    rcases hch with rfl | rfl
    · exact .inr rfl
    · exact .inl rfl
  · exact .inl (isDigit_of_mem_repr h)

theorem mem_factorSymbol {ch : Char} (h : ch ∈ (table.factorSymbol i).toList) :
    ch.isDigit = true ∨ ch = '-' ∨ ch = '⋅' := by
  unfold factorSymbol at h
  split at h
  · cases h
  · split at h
    · exact .inr (.inl (by simpa using h))
    · rw [String.toList_append, List.mem_append] at h
      rcases h with hdecimal | hdot
      · exact .inl (isDigit_of_mem_repr hdecimal)
      · exact .inr (.inr (by simpa using hdot))

end CoefficientTable

/-! ## Terms -/

namespace Term

variable {t : Term} {text : String}

/-- The symbol of a term whose coefficient is in the table. -/
def symbol (table : CoefficientTable c) (t : Term) : String :=
  if t.isVirtual then table.constantSymbol t.coeff
  else table.factorSymbol t.coeff ++ "w" ++ t.wire.index.repr

theorem symbolic_eq_ok_iff :
    t.symbolic table = .ok text ↔ t.coeff.index < table.size ∧ t.symbol table = text := by
  unfold symbolic symbol
  -- units are written without looking up their value, but they are in every table
  split
  · exact CoefficientTable.constantText_eq_ok_iff
  · unfold CoefficientTable.factorSymbol
    split
    · rename_i hone
      have hlt : t.coeff.index < table.size := table.lt_size_of_reserved (by rw [hone]; decide)
      simp [hlt, toString]
    · split
      · rename_i hminus
        have hlt : t.coeff.index < table.size :=
          table.lt_size_of_reserved (by rw [hminus]; decide)
        simp [hlt, toString]
      · simp only [bind_eq_ok_iff, CoefficientTable.value_eq_ok_iff, pure_eq_ok_iff, and_assoc,
          exists_and_left, exists_eq_left', toString]
        rw [show "⋅w" = "⋅" ++ "w" from rfl, ← String.append_assoc]

/-- Symbols are made of digits, the sign, the dot and the letter of wires. -/
theorem mem_symbol {ch : Char} (h : ch ∈ (t.symbol table).toList) :
    ch.isDigit = true ∨ ch = '-' ∨ ch = '⋅' ∨ ch = 'w' := by
  unfold symbol at h
  split at h
  · rcases CoefficientTable.mem_constantSymbol h with hdigit | hminus
    · exact .inl hdigit
    · exact .inr (.inl hminus)
  · simp only [String.toList_append, List.mem_append] at h
    rcases h with (hfactor | hw) | hwire
    · rcases CoefficientTable.mem_factorSymbol hfactor with hdigit | hminus | hdot
      · exact .inl hdigit
      · exact .inr (.inl hminus)
      · exact .inr (.inr (.inl hdot))
    · exact .inr (.inr (.inr (by simpa using hw)))
    · exact .inl (isDigit_of_mem_repr hwire)

end Term

/-! ## Combinations -/

namespace LinearCombination

variable {lc : LinearCombination} {text : String}

/-- What a combination is shown by: the symbols of its terms, or one that says it has none. -/
def symbols (table : CoefficientTable c) (lc : LinearCombination) : List String :=
  if lc.terms.isEmpty then ["<unset>"] else lc.terms.map (Term.symbol table)

theorem symbolic_eq_ok_iff : lc.symbolic table = .ok text ↔
    (∀ t ∈ lc.terms, t.coeff.index < table.size) ∧
      " + ".intercalate (lc.symbols table) = text := by
  unfold symbolic symbols
  split
  · rename_i hempty
    simp [List.isEmpty_iff.1 hempty]
  · simp only [bind_eq_ok_iff, pure_eq_ok_iff, mapM_eq_ok_iff, Term.symbolic_eq_ok_iff,
      List.forall₂_and_left, ← List.forall₂_map_left_iff, List.forall₂_eq_eq_eq, and_assoc,
      exists_and_left, exists_eq_left']

end LinearCombination

end CircuitWitness
