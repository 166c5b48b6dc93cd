import CircuitWitness.Proofs.Quotients
import CircuitWitness.Proofs.Registration
import CircuitWitness.Proofs.Solver.Ledger
import CircuitWitness.Proofs.Solver.Served

/-! # The zero test

    Two hints and two constraints test `x` for zero: `z` is `1` if `x` is zero and `0` if
    it is not, `i` inverts `x` where it can, and `x ⋅ z = 0` and `x ⋅ i + z = 1`.  What the
    hints compute satisfies the constraints for every `x`, although one of them looks at
    the integer and the other at its residue.  The constraints leave no choice of `z`,
    and some of `i` where `x` is zero.

    So a circuit of these hints and constraints is solved for every input, and whoever
    satisfies it has tested `x` for zero.
-/

namespace CircuitWitness

open Solving

variable {c : Curve} {k : Kind}

/-! ## In the field -/

namespace Scalar

/-- `1` if the scalar is zero, and `0` if it is not. -/
def zeroFlag (x : Scalar c) : Scalar c := if x = 0 then 1 else 0

/-- `z` and `i` satisfy the constraints of the zero test of `x`. -/
structure TestsZero (x z i : Scalar c) : Prop where
  product : x * z = 0
  sum : x * i + z = 1

theorem testsZero_inv (x : Scalar c) : x.TestsZero x.zeroFlag x⁻¹ := by
  unfold zeroFlag
  by_cases hx : x = 0
  · constructor
    · rw [hx, zero_mul]
    · rw [if_pos hx, hx, zero_mul, zero_add]
  · constructor
    · rw [if_neg hx, mul_zero]
    · rw [if_neg hx, mul_inv_cancel₀ hx, add_zero]

/-- The constraints leave no choice of `z`. -/
theorem TestsZero.eq_zeroFlag {x z i : Scalar c} (h : x.TestsZero z i) : z = x.zeroFlag := by
  unfold zeroFlag
  by_cases hx : x = 0
  · have hsum := h.sum
    rw [hx, zero_mul, zero_add] at hsum
    rw [if_pos hx, hsum]
  · rw [if_neg hx]
    exact (mul_eq_zero.1 h.product).resolve_left hx

end Scalar

namespace HintFunction

open Scalar

/-- The zero test looks at the integer as it is. -/
theorem call_isZero (a held : Nat) :
    isZero.call c [a] [held] = ([if a = 0 then 1 else 0], .ok ()) := by
  unfold isZero
  apply call_single_ok (show [a].length = 1 from rfl)
  rfl

/-- On the representative of a scalar it tests the scalar. -/
theorem call_isZero_val (x : Scalar c) (held : Nat) :
    isZero.call c [x.val] [held] = ([x.zeroFlag.val], .ok ()) := by
  have hflag : (if x.val = 0 then 1 else 0) = x.zeroFlag.val := by
    unfold zeroFlag
    by_cases hx : x = 0
    · rw [if_pos hx, hx, val_zero, if_pos rfl, val_one]
    · have hval : x.val ≠ 0 := fun habs => hx (Scalar.ext (habs.trans val_zero.symm))
      rw [if_neg hx, if_neg hval, val_zero]
  rw [call_isZero, hflag]

theorem call_invZero_val (x : Scalar c) (held : Nat) :
    invZero.call c [x.val] [held] = ([(x⁻¹).val], .ok ()) := by
  rw [call_invZero, ofNat_val]

/-- Both functions of the zero test are there, and no two functions share an identifier. -/
structure OffersZeroTest (functions : List HintFunction) : Prop where
  nodup : (functions.map HintFunction.id).Nodup
  isZero_mem : isZero ∈ functions
  invZero_mem : invZero ∈ functions

theorem OffersZeroTest.id_ne {functions : List HintFunction} (h : OffersZeroTest functions) :
    isZero.id ≠ invZero.id := by
  intro habs
  have hsame := List.inj_on_of_nodup_map h.nodup h.isZero_mem h.invZero_mem habs
  exact absurd (congrArg HintFunction.name hsame) (by decide)

end HintFunction

/-! ## Circuits -/

/-- The call of a function for one wire from one secret wire. -/
def HintCall.single (h : HintFunction) (x out : WireId) : HintCall :=
  ⟨h.id, [⟨[⟨.one, x, .secret⟩]⟩], [out]⟩

@[simp] theorem HintCall.id_single (h : HintFunction) (x out : WireId) :
    (HintCall.single h x out).id = h.id := rfl

@[simp] theorem HintCall.wires_single (h : HintFunction) (x out : WireId) :
    (HintCall.single h x out).wires = [out] := rfl

@[simp] theorem HintCall.inputs_single (h : HintFunction) (x out : WireId) :
    (HintCall.single h x out).inputs = [⟨[⟨.one, x, .secret⟩]⟩] := rfl

theorem inputValues_single (table : CoefficientTable c) (v : Valuation c) (h : HintFunction)
    (x out : WireId) : inputValues table v (HintCall.single h x out).inputs = [(v x).val] := by
  have hterm : Term.denote table v ⟨.one, x, .secret⟩ = v x := by
    show table.coefficient .one * v x = v x
    rw [CoefficientTable.coefficient_one, one_mul]
  rw [HintCall.inputs_single, inputValues, List.map_singleton, denoteSum_cons, denoteSum_nil,
    add_zero, hterm]

/-- A function of one input and one output gives the wire of its call what it computes. -/
theorem HintCall.gives_single {table : CoefficientTable c} {functions : HintTable}
    {v : Valuation c} {h : HintFunction} {x out : WireId} {y : Nat}
    (hfind : functions.find? h.id = some h) (harity : h.arity = .fixed 1)
    (houtputs : h.nOutputs 1 = 1) (hcall : h.call c [(v x).val] [0] = ([y], .ok ()))
    (hv : v out = .ofNat y) : (HintCall.single h x out).Gives table functions v := by
  refine ⟨h, [y], ⟨hfind, ?_, houtputs⟩, ?_, ?_⟩
  · rw [harity]
    rfl
  · have hzeros : h.zeros (.single h x out) = [0] := by
      show List.replicate (h.nOutputs 1) 0 = [0]
      rw [houtputs]
      rfl
    rw [inputValues_single, hzeros, hcall]
  · show [Scalar.ofNat y] = [v out]
    rw [hv]

namespace Circuit

/-- The secret wire `x` is tested for zero: the internal wires `z` and `i` are those of the two
    hints, and the gates say what the two constraints say. -/
structure ZeroTest (s : Circuit c k) (x z i : WireId) : Prop where
  secret : s.layout.visibility? x = some .secret
  internal_iff : ∀ w, s.layout.visibility? w = some .internal ↔ w = z ∨ w = i
  mem_calls_iff : ∀ call, call ∈ s.hints.calls ↔
    call = .single .isZero x z ∨ call = .single .invZero x i
  operandsSet : ∀ g ∈ s.gates.toList, g.OperandsSet
  constraints : ∀ v : Valuation c, v .one = 1 →
    ((∀ g ∈ s.gates.toList, g.denote s.table v = 0) ↔ (v x).TestsZero (v z) (v i))

/-- Wherever the functions of the zero test are there, the circuit is solved, and `z` tells
    whether the input `x` is zero.  It tells so under every assignment that satisfies the
    gates. -/
structure TellsZero (s : Circuit c k) (x z i : WireId) : Prop where
  solved : ∀ assignment registry options, assignment.length = s.layout.nInputs →
    HintFunction.OffersZeroTest (registry.functions ++ options.hintFunctions) →
    ∃ w a, (s.solve assignment registry options).result = .ok w ∧ w.isSatisfied = true ∧
      (1 :: assignment)[x.index]? = some a ∧ w.values[x.index]? = some a ∧
      w.values[z.index]? = some a.zeroFlag ∧ w.values[i.index]? = some a⁻¹
  pinned : ∀ values, values[0]? = some 1 → s.verify values = .ok () →
    valuation values z = (valuation values x).zeroFlag

namespace ZeroTest

variable {s : Circuit c k} {x z i : WireId}

/-- Both calls read `x`. -/
theorem inputs_eq (h : s.ZeroTest x z i) {call : HintCall} (hcall : call ∈ s.hints.calls) :
    call.inputs = [⟨[⟨.one, x, .secret⟩]⟩] := by
  rcases (h.mem_calls_iff call).1 hcall with rfl | rfl
  · exact HintCall.inputs_single ..
  · exact HintCall.inputs_single ..

/-- The calls read something too. -/
theorem operandsSet_all (h : s.ZeroTest x z i) : s.OperandsSet := by
  refine ⟨h.operandsSet, ?_⟩
  intro call hcall lc hlc
  rw [h.inputs_eq hcall, List.mem_singleton] at hlc
  rw [hlc]
  nofun

/-- The input is none of the internal wires. -/
theorem ne_internal (h : s.ZeroTest x z i) {w : WireId}
    (hw : s.layout.visibility? w ≠ some .internal) : w ≠ z ∧ w ≠ i :=
  not_or.1 (mt (h.internal_iff w).2 hw)

/-- The two hints have a wire each. -/
theorem z_ne_i (h : s.ZeroTest x z i) {calls : List HintCall} (hrep : s.hints.Represents calls)
    (hne : HintFunction.isZero.id ≠ HintFunction.invZero.id) : z ≠ i := by
  intro habs
  have hz := (hrep.mem_calls_iff.1 ((h.mem_calls_iff _).2 (.inl rfl))).1
  have hi := (hrep.mem_calls_iff.1 ((h.mem_calls_iff _).2 (.inr rfl))).1
  have hsame := hrep.eq_of_mem_wires hz (w := z) (by simp) hi (by simp [habs])
  have hid := congrArg HintCall.id hsame
  rw [HintCall.id_single, HintCall.id_single] at hid
  exact hne hid

end ZeroTest

/-- The inputs with what the hints make of `x`. -/
def tested (assignment : List (Scalar c)) (x z i : WireId) : Valuation c :=
  let inputs := valuation (1 :: assignment).toArray
  Function.update (Function.update inputs i (inputs x)⁻¹) z (inputs x).zeroFlag

section Tested

variable {assignment : List (Scalar c)} {x z i : WireId}

theorem tested_of_ne {w : WireId} (hz : w ≠ z) (hi : w ≠ i) :
    tested assignment x z i w = valuation (1 :: assignment).toArray w := by
  unfold tested
  rw [Function.update_of_ne hz, Function.update_of_ne hi]

theorem tested_z : tested assignment x z i z =
    (valuation (1 :: assignment).toArray x).zeroFlag := by
  unfold tested
  rw [Function.update_self]

theorem tested_i (hne : z ≠ i) : tested assignment x z i i =
    (valuation (1 :: assignment).toArray x)⁻¹ := by
  unfold tested
  rw [Function.update_of_ne hne.symm, Function.update_self]

variable {s : Circuit c k} {functions : HintTable}

theorem ZeroTest.tested_x (h : s.ZeroTest x z i) :
    tested assignment x z i x = valuation (1 :: assignment).toArray x := by
  obtain ⟨hz, hi⟩ := h.ne_internal (w := x) (by rw [h.secret]; nofun)
  exact tested_of_ne hz hi

/-- What the hints make of `x` satisfies the constraints. -/
theorem ZeroTest.testsZero_tested (h : s.ZeroTest x z i) (hne : z ≠ i) :
    (tested assignment x z i x).TestsZero (tested assignment x z i z)
      (tested assignment x z i i) := by
  rw [h.tested_x, tested_z, tested_i hne]
  exact Scalar.testsZero_inv _

theorem ZeroTest.served (h : s.ZeroTest x z i) (hne : z ≠ i)
    (hisZero : functions.find? HintFunction.isZero.id = some .isZero)
    (hinvZero : functions.find? HintFunction.invZero.id = some .invZero) :
    s.Served assignment functions (tested assignment x z i) := by
  constructor
  case inputs =>
    intro w hw y hy
    obtain ⟨hwz, hwi⟩ := h.ne_internal hw
    rw [tested_of_ne hwz hwi, valuation, List.getElem?_toArray, hy]
    rfl
  case produced =>
    intro w hw
    -- the internal wires of the gadget are the outputs of its two calls
    rcases (h.internal_iff w).1 hw with rfl | rfl
    · exact ⟨_, (h.mem_calls_iff _).2 (.inl rfl), List.mem_singleton.2 rfl⟩
    · exact ⟨_, (h.mem_calls_iff _).2 (.inr rfl), List.mem_singleton.2 rfl⟩
  case reads =>
    intro call hcall lc hlc t ht
    rw [h.inputs_eq hcall, List.mem_singleton] at hlc
    rw [hlc, List.mem_singleton] at ht
    rw [ht]
    intro habs
    cases habs
  case gives =>
    intro call hcall
    -- each call computes from the tested value what the assignment has at its output
    rcases (h.mem_calls_iff call).1 hcall with rfl | rfl
    · refine HintCall.gives_single hisZero rfl rfl (HintFunction.call_isZero_val _ 0) ?_
      rw [tested_z, h.tested_x, Scalar.ofNat_val]
    · refine HintCall.gives_single hinvZero rfl rfl (HintFunction.call_invZero_val _ 0) ?_
      rw [tested_i hne, h.tested_x, Scalar.ofNat_val]

end Tested

theorem ZeroTest.tellsZero {s : Circuit c k} {x z i : WireId} (h : s.ZeroTest x z i)
    {calls : List HintCall} (hbuilt : Built calls s) (hvalid : s.validate = .ok ()) :
    s.TellsZero x z i := by
  have hs := validate_eq_ok_iff.1 hvalid
  have honeWire : s.layout.visibility? .one = some .pub := if_pos hs.oneWire
  constructor
  case solved =>
    intro assignment registry options hlen hoffers
    have hfunctions := hintTable_eq_ok hoffers.nodup
    have hne := h.z_ne_i hbuilt.represents hoffers.id_ne
    have hserved : s.Served assignment _ (tested assignment x z i) := h.served hne
      ((find?_hintTable_eq_some_iff hfunctions).2 ⟨hoffers.isZero_mem, rfl⟩)
      ((find?_hintTable_eq_some_iff hfunctions).2 ⟨hoffers.invZero_mem, rfl⟩)
    have hone : tested assignment x z i .one = 1 :=
      hserved.inputs .one (by rw [honeWire]; nofun) 1 rfl
    have hgates := (h.constraints _ hone).2 (h.testsZero_tested hne)
    obtain ⟨w, hw, hsatisfied, hvalues⟩ :=
      hserved.exists_solve hbuilt hvalid h.operandsSet_all hlen hfunctions hgates
    -- the internal wires hold what the hints make of the input at `x`
    obtain ⟨a, ha⟩ := exists_seed hs.oneWire hlen h.secret nofun
    have hinput : valuation (1 :: assignment).toArray x = a := by
      rw [valuation, List.getElem?_toArray, ha]
      rfl
    refine ⟨w, a, hw, hsatisfied, ha, ?_, ?_, ?_⟩
    · rw [hvalues x (visibility?_lt h.secret), h.tested_x, hinput]
    · rw [hvalues z (visibility?_lt ((h.internal_iff z).2 (.inl rfl))), tested_z, hinput]
    · rw [hvalues i (visibility?_lt ((h.internal_iff i).2 (.inr rfl))), tested_i hne, hinput]
  case pinned =>
    intro values hone hverify
    have hgates : ∀ g ∈ s.gates.toList, g.denote s.table (valuation values) = 0 := fun g hg =>
      denote_eq_zero_of_verify (fun g hg => (hs.gates g hg).inBounds) hverify hg
    have hone' : valuation values .one = 1 := by
      show (values[0]?).getD 0 = 1
      rw [hone]
      rfl
    exact ((h.constraints _ hone').1 hgates).eq_zeroFlag

end Circuit

/-- For every scalar the hints of the zero test satisfy its constraints, which leave no choice
    of `z`.  So every circuit of the two hints and constraints is solved, and tells whether
    its input is zero. -/
theorem zeros_tested (c : Curve) (k : Kind) :
    (∀ x : Scalar c, ∃ z i,
        (∀ held, HintFunction.isZero.call c [x.val] [held] = ([z], .ok ())) ∧
        (∀ held, HintFunction.invZero.call c [x.val] [held] = ([i], .ok ())) ∧
        x.TestsZero (.ofNat z) (.ofNat i) ∧
        ∀ z' i', x.TestsZero z' i' → z' = .ofNat z) ∧
      ∀ {calls : List HintCall} {s : Circuit c k} {x z i : WireId}, Circuit.Built calls s →
        s.validate = .ok () → s.ZeroTest x z i → s.TellsZero x z i := by
  constructor
  · intro x
    refine ⟨_, _, HintFunction.call_isZero_val x, HintFunction.call_invZero_val x, ?_, ?_⟩
    · rw [Scalar.ofNat_val, Scalar.ofNat_val]
      exact Scalar.testsZero_inv x
    · intro z' i' h
      rw [Scalar.ofNat_val]
      exact h.eq_zeroFlag
  · intro calls s x z i hbuilt hvalid htest
    exact htest.tellsZero hbuilt hvalid

namespace Circuit

/-- The calls of the zero test of the wire `1`. -/
def testingCalls : List HintCall := [.single .isZero ⟨1⟩ ⟨2⟩, .single .invZero ⟨1⟩ ⟨3⟩]

/-- The secret wire `1` is tested for zero. -/
def testing : Circuit .bn254 .rankOne where
  layout := ⟨1, 1, 2⟩
  table := .new
  gates :=
    let x : LinearCombination := ⟨[⟨.one, ⟨1⟩, .secret⟩]⟩
    #[.rankOne ⟨x, ⟨[⟨.one, ⟨2⟩, .internal⟩]⟩, ⟨[⟨.zero, ⟨0⟩, .pub⟩]⟩⟩,
      .rankOne ⟨x, ⟨[⟨.one, ⟨3⟩, .internal⟩]⟩,
        ⟨[⟨.one, ⟨0⟩, .pub⟩, ⟨.minusOne, ⟨2⟩, .internal⟩]⟩⟩]
  hints := ⟨[(⟨2⟩, .single .isZero ⟨1⟩ ⟨2⟩), (⟨3⟩, .single .invZero ⟨1⟩ ⟨3⟩)]⟩
  logs := #[]
  debugInfo := []

theorem built_testing : Built testingCalls testing := by
  have hnew : Built [] (.new ⟨1, 1, 2⟩ : Circuit .bn254 .rankOne) := .new _
  have hz : Built [.single .isZero ⟨1⟩ ⟨2⟩] { (.new ⟨1, 1, 2⟩ : Circuit .bn254 .rankOne) with
      hints := ⟨[(⟨2⟩, .single .isZero ⟨1⟩ ⟨2⟩)]⟩ } := hnew.addHint _ rfl
  have hi : Built testingCalls { (.new ⟨1, 1, 2⟩ : Circuit .bn254 .rankOne) with
      hints := testing.hints } := hz.addHint (.single .invZero ⟨1⟩ ⟨3⟩) rfl
  exact .addConstraint _ (.addConstraint _ hi)

theorem zeroTest_testing : testing.ZeroTest ⟨1⟩ ⟨2⟩ ⟨3⟩ := by
  constructor
  case secret => rfl
  case internal_iff =>
    -- the internal wires are the two after the tested input
    rintro ⟨j⟩
    rw [Layout.visibility?_eq_some_iff]
    simp only [Layout.wireAt_eq_ok_iff, WireId.mk.injEq]
    show (∃ i, i < 2 ∧ j = 2 + i) ↔ _
    constructor
    · rintro ⟨i, hi, rfl⟩
      omega
    · intro h
      exact ⟨j - 2, by omega, by omega⟩
  case mem_calls_iff =>
    intro call
    have hcalls : testing.hints.calls = testingCalls := rfl
    rw [hcalls]
    simp [testingCalls]
  case operandsSet =>
    simp [testing, Gate.OperandsSet]
  case constraints =>
    intro v hv
    have hone : v ⟨0⟩ = 1 := hv
    have hgates : (∀ g ∈ testing.gates.toList, g.denote testing.table v = 0) ↔
        v ⟨1⟩ * v ⟨2⟩ = 0 ∧ v ⟨1⟩ * v ⟨3⟩ - (1 + -v ⟨2⟩) = 0 := by
      simp [testing, Gate.denote, Term.denote, Term.isVirtual, hone]
    rw [hgates]
    -- the gates are the two equations, one of them with its sides apart
    constructor
    · rintro ⟨hproduct, hsum⟩
      exact ⟨hproduct, by linear_combination hsum⟩
    · intro h
      exact ⟨h.product, by linear_combination h.sum⟩

end Circuit

/-- The zero test of `0` and of `5`. -/
theorem zeros_tested_sample :
    (Circuit.Built Circuit.testingCalls Circuit.testing ∧ Circuit.testing.validate = .ok () ∧
      Circuit.testing.ZeroTest ⟨1⟩ ⟨2⟩ ⟨3⟩) ∧
    (∃ w, (Circuit.testing.solve [0] .withBuiltins .standard).result = .ok w ∧
      w.values[2]? = some 1) ∧
    ∃ w, (Circuit.testing.solve [5] .withBuiltins .standard).result = .ok w ∧
      w.values[2]? = some 0 ∧ w.values[3]? = some 5⁻¹ := by
  -- the builtin functions are offered, so that the gadget is solved for any value
  have hvalid : Circuit.testing.validate = .ok () := rfl
  have htells := (zeros_tested .bn254 .rankOne).2 Circuit.built_testing hvalid
    Circuit.zeroTest_testing
  have hoffers : HintFunction.OffersZeroTest
      (Registry.withBuiltins.functions ++ SolverOptions.standard.hintFunctions) := by
    rw [Registry.functions_withBuiltins]
    exact ⟨Registry.nodup_builtins, by simp [HintFunction.builtins],
      by simp [HintFunction.builtins]⟩
  refine ⟨⟨Circuit.built_testing, hvalid, Circuit.zeroTest_testing⟩, ?_, ?_⟩
  · obtain ⟨w, a, hw, -, ha, -, hz, -⟩ := htells.solved [0] .withBuiltins .standard rfl hoffers
    cases ha
    exact ⟨w, hw, hz⟩
  · obtain ⟨w, a, hw, -, ha, -, hz, hi⟩ := htells.solved [5] .withBuiltins .standard rfl hoffers
    cases ha
    exact ⟨w, hw, hz, hi⟩

end CircuitWitness
