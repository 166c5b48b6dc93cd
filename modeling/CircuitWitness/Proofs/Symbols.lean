import CircuitWitness.Proofs.Circuit.Symbols
import CircuitWitness.Proofs.Constants

/-! # Symbolic texts can be told apart

    The text of a combination has a blank on either side of every plus sign, and there is
    none in a symbol.  So the symbols can be read off the text, and from a symbol all that
    the term shows: its coefficient, since the table holds every constant once, whether it
    has a wire, and which (`Term.SameSymbol`).
-/

namespace CircuitWitness

variable {c : Curve} {table : CoefficientTable c}

/-! ## Decimals -/

/-- The number that a decimal shows. -/
def readDecimal (text : String) : Nat := Nat.ofDigitChars 10 text.toList 0

@[simp] theorem readDecimal_repr (n : Nat) : readDecimal n.repr = n := by
  rw [readDecimal, Nat.repr_eq_ofList_toDigits, String.toList_ofList, Nat.ofDigitChars_ten_toDigits]

theorem repr_injective : Function.Injective Nat.repr :=
  Function.LeftInverse.injective readDecimal_repr

namespace Scalar

theorem decimal_inj {x y : Scalar c} : x.decimal = y.decimal ↔ x = y := by
  constructor
  · intro h
    exact Scalar.ext (repr_injective h)
  · intro h
    rw [h]

theorem not_mem_decimal (x : Scalar c) {ch : Char} (h : ch.isDigit = false) :
    ch ∉ x.decimal.toList := by
  intro hmem
  rw [isDigit_of_mem_repr hmem] at h
  cases h

end Scalar

/-! ## Coefficients -/

namespace CoefficientTable

variable {i j : CoeffId}

/-- No two indices of the table hold one constant. -/
theorem coefficient_inj (hi : i.index < table.size) (hj : j.index < table.size) :
    table.coefficient i = table.coefficient j ↔ i = j := by
  constructor
  · intro h
    exact get?_inj (get?_eq_some_iff.2 ⟨hi, h⟩) (get?_eq_some_iff.2 ⟨hj, rfl⟩)
  · intro h
    rw [h]

theorem minus_mem_constantSymbol (table : CoefficientTable c) :
    '-' ∈ (table.constantSymbol i).toList ↔ i = .minusOne := by
  have hdecimal := (table.coefficient i).not_mem_decimal (by decide : '-'.isDigit = false)
  unfold constantSymbol
  split
  · rename_i hi
    simp [hi]
  · rename_i hi
    simp [hi, hdecimal]

theorem minus_mem_factorSymbol (table : CoefficientTable c) :
    '-' ∈ (table.factorSymbol i).toList ↔ i = .minusOne := by
  have hdecimal := (table.coefficient i).not_mem_decimal (by decide : '-'.isDigit = false)
  unfold factorSymbol
  split
  · rename_i hi
    simp +decide [hi]
  · split
    · rename_i hi
      simp [hi]
    · rename_i hi
      simp [hi, hdecimal]

theorem dot_mem_factorSymbol (table : CoefficientTable c) :
    '⋅' ∈ (table.factorSymbol i).toList ↔ i ≠ .one ∧ i ≠ .minusOne := by
  unfold factorSymbol
  split
  · rename_i hone
    simp [hone]
  · rename_i hone
    split
    · rename_i hminus
      simp [hminus]
    · rename_i hminus
      simp [hone, hminus]

theorem constantSymbol_inj (hi : i.index < table.size) (hj : j.index < table.size)
    (h : table.constantSymbol i = table.constantSymbol j) : i = j := by
  have hminus : i = .minusOne ↔ j = .minusOne := by
    rw [← table.minus_mem_constantSymbol, h, minus_mem_constantSymbol]
  by_cases him : i = .minusOne
  · rw [him, hminus.1 him]
  · unfold constantSymbol at h
    rw [if_neg him, if_neg fun hjm => him (hminus.2 hjm)] at h
    exact (coefficient_inj hi hj).1 (Scalar.decimal_inj.1 h)

/-- The sign tells `-1`, and the dot all coefficients that are shown by their decimals. -/
theorem factorSymbol_inj (hi : i.index < table.size) (hj : j.index < table.size)
    (h : table.factorSymbol i = table.factorSymbol j) : i = j := by
  have hminus : i = .minusOne ↔ j = .minusOne := by
    rw [← table.minus_mem_factorSymbol, h, minus_mem_factorSymbol]
  have hdot : i ≠ .one ∧ i ≠ .minusOne ↔ j ≠ .one ∧ j ≠ .minusOne := by
    rw [← table.dot_mem_factorSymbol, h, dot_mem_factorSymbol]
  -- the minus sign and the dot tell the units from other coefficients
  by_cases him : i = .minusOne
  · rw [him, hminus.1 him]
  · have hjm : j ≠ .minusOne := fun hjm => him (hminus.2 hjm)
    by_cases hi1 : i = .one
    · have hj1 : j = .one := by
        by_contra hj1
        exact (hdot.2 ⟨hj1, hjm⟩).1 hi1
      rw [hi1, hj1]
    · have hj1 : j ≠ .one := (hdot.1 ⟨hi1, him⟩).1
      unfold factorSymbol at h
      rw [if_neg hi1, if_neg him, if_neg hj1, if_neg hjm, String.append_left_inj] at h
      exact (coefficient_inj hi hj).1 (Scalar.decimal_inj.1 h)

end CoefficientTable

/-! ## Terms -/

namespace Term

variable {t u : Term}

/-- The letter of wires is in the symbols of terms with a wire. -/
theorem w_mem_symbol (table : CoefficientTable c) :
    'w' ∈ (t.symbol table).toList ↔ t.isVirtual = false := by
  unfold symbol
  split
  · rename_i hv
    have hout : 'w' ∉ (table.constantSymbol t.coeff).toList := by
      intro hmem
      exact absurd (CoefficientTable.mem_constantSymbol hmem) (by decide)
    simp [hv, hout]
  · rename_i hv
    simp [hv]

theorem symbol_ne_unset : t.symbol table ≠ "<unset>" := by
  intro h
  have hmem : '<' ∈ (t.symbol table).toList := by
    rw [h]
    decide
  exact absurd (mem_symbol hmem) (by decide)

/-- The terms show the same: one coefficient, and one wire unless both are virtual. -/
structure SameSymbol (t u : Term) : Prop where
  coeff : t.coeff = u.coeff
  isVirtual : t.isVirtual = u.isVirtual
  wire : t.isVirtual = false → t.wire = u.wire

instance (t u : Term) : Decidable (t.SameSymbol u) :=
  decidable_of_iff (t.coeff = u.coeff ∧ t.isVirtual = u.isVirtual ∧
    (t.isVirtual = false → t.wire = u.wire))
    ⟨fun h => ⟨h.1, h.2.1, h.2.2⟩, fun h => ⟨h.coeff, h.isVirtual, h.wire⟩⟩

/-- The letter of wires parts a symbol into its coefficient and its wire. -/
theorem symbol_of_wire (hv : t.isVirtual = false) : (t.symbol table).toList =
    (table.factorSymbol t.coeff).toList ++ 'w' :: t.wire.index.repr.toList := by
  rw [symbol, if_neg (by simp [hv]), String.toList_append, String.toList_append,
    List.append_assoc]
  rfl

/-- A symbol tells the coefficient and the wire. -/
theorem symbol_inj (ht : t.coeff.index < table.size) (hu : u.coeff.index < table.size) :
    t.symbol table = u.symbol table ↔ t.SameSymbol u := by
  constructor
  · intro h
    -- whether there is a wire can be seen from the text, before anything is cut
    have hsame : t.isVirtual = false ↔ u.isVirtual = false := by
      rw [← w_mem_symbol table, h, w_mem_symbol]
    cases hv : t.isVirtual with
    | true =>
      have hv' : u.isVirtual = true := by
        rw [← Bool.not_eq_false, ← hsame, hv]
        nofun
      rw [symbol, if_pos hv, symbol, if_pos hv'] at h
      exact ⟨CoefficientTable.constantSymbol_inj ht hu h, by rw [hv, hv'], by simp [hv]⟩
    | false =>
      have hv' := hsame.1 hv
      have hfactor : 'w' ∉ (table.factorSymbol t.coeff).toList := by
        intro hmem
        exact absurd (CoefficientTable.mem_factorSymbol hmem) (by decide)
      have hwire : 'w' ∉ t.wire.index.repr.toList := by
        intro hmem
        exact absurd (isDigit_of_mem_repr hmem) (by decide)
      have hparts := congrArg String.toList h
      rw [symbol_of_wire hv, symbol_of_wire hv', List.append_cons_inj_of_notMem hfactor hwire]
        at hparts
      obtain ⟨hfactors, -, hwires⟩ := hparts
      refine ⟨?_, by rw [hv, hv'], fun _ => ?_⟩
      · exact CoefficientTable.factorSymbol_inj ht hu (String.toList_inj.1 hfactors)
      · exact congrArg WireId.mk (repr_injective (String.toList_inj.1 hwires))
  · rintro ⟨hcoeff, hvirtual, hwire⟩
    unfold symbol
    cases hv : t.isVirtual with
    | true => rw [if_pos rfl, ← hvirtual, hv, if_pos rfl, hcoeff]
    | false => rw [← hvirtual, hv, hcoeff, hwire hv]

end Term

/-! ## Separators -/

/-- What stands in front of the first `x`, and what stands behind it. -/
theorem append_cons_inj {x : Char} {a b rest rest' : List Char} (ha : x ∉ a) (hb : x ∉ b)
    (h : a ++ x :: rest = b ++ x :: rest') : a = b ∧ rest = rest' := by
  -- the rests may have `x` again, so both lists are cut where it first comes
  have hindex := congrArg (List.idxOf x) h
  rw [List.idxOf_append_of_notMem ha, List.idxOf_append_of_notMem hb, List.idxOf_cons_self,
    List.idxOf_cons_self] at hindex
  obtain ⟨hab, hrest⟩ := List.append_inj h hindex
  exact ⟨hab, (List.cons.inj hrest).2⟩

/-- Pieces can be read off the whole, if no piece has the character that opens a separator. -/
theorem intercalate_inj {x : Char} {sep : List Char} {as bs : List (List Char)}
    (has : ∀ a ∈ as, x ∉ a) (hbs : ∀ b ∈ bs, x ∉ b) (hne : as ≠ []) (hne' : bs ≠ [])
    (h : (x :: sep).intercalate as = (x :: sep).intercalate bs) : as = bs := by
  induction as generalizing bs with
  | nil => exact absurd rfl hne
  | cons a as ih =>
    obtain ⟨b, bs, rfl⟩ := List.exists_cons_of_ne_nil hne'
    rw [List.forall_mem_cons] at has hbs
    -- a whole of one piece has no separator, and a whole of more pieces has one
    cases as with
    | nil =>
      cases bs with
      | nil => simpa using h
      | cons b' bs =>
        rw [List.intercalate_singleton, List.intercalate_cons_cons] at h
        exact absurd (h ▸ by simp) has.1
    | cons a' as =>
      cases bs with
      | nil =>
        rw [List.intercalate_singleton, List.intercalate_cons_cons] at h
        exact absurd (h ▸ by simp) hbs.1
      | cons b' bs =>
        simp only [List.intercalate_cons_cons, List.append_assoc, List.cons_append] at h
        obtain ⟨rfl, hrest⟩ := append_cons_inj has.1 hbs.1 h
        have htail := ih has.2 hbs.2 nofun nofun (List.append_cancel_left hrest)
        rw [htail]

/-! ## Combinations -/

namespace LinearCombination

variable {lc a b : LinearCombination}

theorem symbols_ne_nil : lc.symbols table ≠ [] := by
  unfold symbols
  split
  · nofun
  · rename_i hempty
    simpa using hempty

theorem blank_not_mem_symbols {symbol : String} (h : symbol ∈ lc.symbols table) :
    ' ' ∉ symbol.toList := by
  unfold symbols at h
  split at h
  · rw [List.mem_singleton.1 h]
    decide
  · obtain ⟨t, -, rfl⟩ := List.mem_map.1 h
    intro hmem
    exact absurd (Term.mem_symbol hmem) (by decide)

/-- The symbols can be read off the text, since none of them has a blank. -/
theorem symbols_of_text (h : " + ".intercalate (a.symbols table) =
    " + ".intercalate (b.symbols table)) : a.symbols table = b.symbols table := by
  have hblank : ∀ lc : LinearCombination, ∀ piece ∈ (lc.symbols table).map String.toList,
      ' ' ∉ piece := by
    intro lc piece hpiece
    obtain ⟨symbol, hsymbol, rfl⟩ := List.mem_map.1 hpiece
    exact blank_not_mem_symbols hsymbol
  have hsome : ∀ lc : LinearCombination, (lc.symbols table).map String.toList ≠ [] := by
    intro lc hnil
    exact symbols_ne_nil (List.map_eq_nil_iff.1 hnil)
  -- no symbol has a blank in it, so that the text can be taken apart again
  have hchars := congrArg String.toList h
  rw [String.toList_intercalate, String.toList_intercalate] at hchars
  have hpieces := intercalate_inj (hblank a) (hblank b) (hsome a) (hsome b) hchars
  exact List.map_injective_iff.2 (fun _ _ => String.toList_inj.1) hpieces

theorem map_symbol_inj {ts us : List Term} (ht : ∀ t ∈ ts, t.coeff.index < table.size)
    (hu : ∀ u ∈ us, u.coeff.index < table.size) :
    ts.map (Term.symbol table) = us.map (Term.symbol table) ↔
      List.Forall₂ Term.SameSymbol ts us := by
  induction ts generalizing us with
  | nil => cases us <;> simp
  | cons t ts ih =>
    cases us with
    | nil => simp
    | cons u us =>
      rw [List.forall_mem_cons] at ht hu
      rw [List.map_cons, List.map_cons, List.cons.injEq, Term.symbol_inj ht.1 hu.1,
        ih ht.2 hu.2, List.forall₂_cons]

theorem symbols_inj (ha : ∀ t ∈ a.terms, t.coeff.index < table.size)
    (hb : ∀ t ∈ b.terms, t.coeff.index < table.size) :
    a.symbols table = b.symbols table ↔ List.Forall₂ Term.SameSymbol a.terms b.terms := by
  rw [← map_symbol_inj ha hb]
  unfold symbols
  -- the symbol of a combination without terms is the symbol of no term
  cases a.terms with
  | nil =>
    cases b.terms with
    | nil => simp
    | cons u us => simp [Term.symbol_ne_unset.symm]
  | cons t ts =>
    cases b.terms with
    | nil => simp [Term.symbol_ne_unset]
    | cons u us => rfl

/-- Combinations have texts if their coefficients are in the table, and two texts are equal when
    the combinations show the same term by term. -/
theorem symbolic_unambiguous (ha : ∀ t ∈ a.terms, t.coeff.index < table.size)
    (hb : ∀ t ∈ b.terms, t.coeff.index < table.size) :
    ∃ text text', a.symbolic table = .ok text ∧ b.symbolic table = .ok text' ∧
      (text = text' ↔ List.Forall₂ Term.SameSymbol a.terms b.terms) := by
  refine ⟨_, _, symbolic_eq_ok_iff.2 ⟨ha, rfl⟩, symbolic_eq_ok_iff.2 ⟨hb, rfl⟩, ?_⟩
  rw [← symbols_inj ha hb]
  constructor
  · exact symbols_of_text
  · intro h
    rw [h]

/-- The mark between the spans of a log entry, and a wire. -/
def marked : LinearCombination := ⟨[.delimiter, ⟨.minusOne, ⟨4⟩, .internal⟩]⟩

/-- Zero and the same wire, which is now a secret one. -/
def zeroed : LinearCombination := ⟨[.constant .zero, ⟨.minusOne, ⟨4⟩, .secret⟩]⟩

/-- What a term is visible as does not show, nor what wire a virtual term names. -/
theorem symbolic_unambiguous_sample :
    marked.symbolic (.new : CoefficientTable .bn254) = .ok "0 + -w4" ∧
      zeroed.symbolic (.new : CoefficientTable .bn254) = .ok "0 + -w4" ∧
      List.Forall₂ Term.SameSymbol marked.terms zeroed.terms := by
  have hmarked : marked.symbolic (.new : CoefficientTable .bn254) = .ok "0 + -w4" := rfl
  have hzeroed : zeroed.symbolic (.new : CoefficientTable .bn254) = .ok "0 + -w4" := rfl
  obtain ⟨text, text', htext, htext', hiff⟩ := @symbolic_unambiguous .bn254 .new marked zeroed
    (by decide) (by decide)
  rw [hmarked] at htext
  rw [hzeroed] at htext'
  exact ⟨hmarked, hzeroed, hiff.1 (Except.ok.inj (htext.symm.trans htext'))⟩

end LinearCombination

end CircuitWitness
