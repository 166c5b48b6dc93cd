import CircuitWitness.Proofs.Circuit.Interning
import CircuitWitness.Proofs.Solver.Visit

/-! # Equations as gates of both kinds

    An equation multiplies or adds two wires, each with a coefficient, and says
    what comes out.  A gate of either kind can express it.  The rank-one gate of a
    product has one factor on each side; that of a sum has the sum on one side and
    the constant `1` on the other.  The sparse gate takes everything to one side.

    `Circuit.Encodes` says that the gates of a circuit express equations one by one.
    Whatever the kind, such a gate has the value of its equation and uses the same
    wires (`Equation.Expressed`).
-/

namespace CircuitWitness

variable {c : Curve} {k : Kind}

/-- What an equation does with its operands. -/
inductive Operation where
  | product
  | addition
  deriving DecidableEq, Repr

/-- `a ⋅ x × b ⋅ y = d ⋅ z + k`, or `a ⋅ x + b ⋅ y + k = d ⋅ z`. -/
structure Equation (c : Curve) where
  operation : Operation
  a : Scalar c
  b : Scalar c
  d : Scalar c
  k : Scalar c
  x : WireId
  y : WireId
  z : WireId

namespace Equation

/-- What has to be zero for the equation to hold. -/
def value (v : Valuation c) (e : Equation c) : Scalar c :=
  match e.operation with
  | .product => e.a * v e.x * (e.b * v e.y) - (e.d * v e.z + e.k)
  | .addition => e.a * v e.x + e.b * v e.y + e.k - e.d * v e.z

/-- The wire stands in the equation with a coefficient other than zero. -/
def Uses (e : Equation c) (w : WireId) : Prop :=
  (e.a ≠ 0 ∧ e.x = w) ∨ (e.b ≠ 0 ∧ e.y = w) ∨ (e.d ≠ 0 ∧ e.z = w)

/-- The three wires are different wires of the layout. -/
structure Fits (layout : Layout) (e : Equation c) : Prop where
  x_lt : e.x.index < layout.nWires
  y_lt : e.y.index < layout.nWires
  z_lt : e.z.index < layout.nWires
  x_ne_y : e.x ≠ e.y
  x_ne_z : e.x ≠ e.z
  y_ne_z : e.y ≠ e.z

end Equation

/-! ## Encodings -/

namespace Equation

/-- The rank-one gate of an equation. -/
def rankOne (s : Circuit c k) (e : Equation c) : Except Fault RankOne := do
  let x ← s.term e.a e.x
  let y ← s.term e.b e.y
  let z ← s.term e.d e.z
  let constant := Term.constant (← s.constant e.k)
  match e.operation with
  | .product => return ⟨⟨[x]⟩, ⟨[y]⟩, ⟨[z, constant]⟩⟩
  | .addition => return ⟨⟨[x, y, constant]⟩, ⟨[.constant .one]⟩, ⟨[z]⟩⟩

/-- The sparse gate of an equation. -/
def sparse (s : Circuit c k) (e : Equation c) : Except Fault SparseGate := do
  let x ← s.term e.a e.x
  let y ← s.term e.b e.y
  let z ← s.term (-e.d) e.z
  let zero := Term.constant .zero
  match e.operation with
  | .product => return ⟨zero, zero, z, x, y, ← s.constant (-e.k)⟩
  | .addition => return ⟨x, y, z, zero, zero, ← s.constant e.k⟩

/-- The gate of an equation, of the kind that the circuit has. -/
def gate : {k : Kind} → Circuit c k → Equation c → Except Fault (Gate k)
  | .rankOne, s, e => return .rankOne (← e.rankOne s)
  | .sparse, s, e => return .sparse (← e.sparse s)

/-- The constants that the gates of an equation need. -/
def constants (e : Equation c) : List (Scalar c) := [e.a, e.b, e.d, -e.d, e.k, -e.k]

end Equation

namespace Circuit

/-- The gates of the circuit express these equations, and it has no hint calls and
    nothing to print. -/
structure Encodes (s : Circuit c k) (layout : Layout) (es : List (Equation c)) : Prop where
  layout_eq : s.layout = layout
  gates_eq : es.mapM (Equation.gate s) = .ok s.gates.toList
  hints_eq : s.hints = .empty
  logs_eq : s.logs = #[]
  debugInfo_eq : s.debugInfo = []

end Circuit

/-! ## What an encoding preserves -/

namespace Gate

/-- The terms of the gate that have a wire. -/
def realTerms (g : Gate k) : List Term := g.terms.filter fun t => !t.isVirtual

/-- The wire stands in the gate with a coefficient other than zero. -/
def Uses (g : Gate k) (w : WireId) : Prop := ∃ t ∈ g.realTerms, t.coeff ≠ .zero ∧ t.wire = w

/-- No wire stands in two terms of the gate. -/
def Separate (g : Gate k) : Prop := (g.realTerms.map Term.wire).Nodup

end Gate

/-- The gate says what the equation says, about the same wires. -/
structure Equation.Expressed (s : Circuit c k) (e : Equation c) (g : Gate k) : Prop where
  fits : s.GateFits g
  operandsSet : g.OperandsSet
  denote_eq : ∀ v, g.denote s.table v = e.value v
  uses_iff : ∀ w, g.Uses w ↔ e.Uses w
  separate : g.Separate

namespace Equation

variable {layout : Layout} {e : Equation c}

/-- A gate has the terms of the equation, in whatever order and up to the sign of `d`,
    and apart from them only constants. -/
structure Operands (s : Circuit c k) (e : Equation c) (g : Gate k) (x y z : Term)
    (d : Scalar c) : Prop where
  isX : s.IsTerm e.a e.x x
  isY : s.IsTerm e.b e.y y
  isZ : s.IsTerm d e.z z
  d_eq_zero_iff : d = 0 ↔ e.d = 0
  real : g.realTerms.Perm [x, y, z]
  virtual : ∀ t ∈ g.terms, t.isVirtual = true → t.coeff.index < s.table.size
  extra : ∀ id ∈ g.extraCoefficients, id.index < s.table.size

namespace Operands

variable {s : Circuit c k} {g : Gate k} {x y z : Term} {d : Scalar c}

theorem fits (h : e.Operands s g x y z d) : s.GateFits g := by
  refine ⟨?_, h.extra⟩
  intro t ht
  cases hvirt : t.isVirtual with
  | true => exact ⟨h.virtual t ht hvirt, fun habs => by simp [hvirt] at habs⟩
  | false =>
    -- a term that has a wire is one of the three
    have hmem := h.real.mem_iff.1 (List.mem_filter.2 ⟨ht, by simp [hvirt]⟩)
    simp only [List.mem_cons, List.not_mem_nil, or_false] at hmem
    rcases hmem with rfl | rfl | rfl
    · exact h.isX.fits
    · exact h.isY.fits
    · exact h.isZ.fits

theorem uses_iff (h : e.Operands s g x y z d) (w : WireId) : g.Uses w ↔ e.Uses w := by
  unfold Gate.Uses
  simp only [h.real.mem_iff, List.mem_cons, List.not_mem_nil, or_false, exists_eq_or_imp,
    exists_eq_left, ne_eq, h.isX.coeff_eq_zero_iff, h.isY.coeff_eq_zero_iff,
    h.isZ.coeff_eq_zero_iff, h.isX.wire_eq, h.isY.wire_eq, h.isZ.wire_eq, h.d_eq_zero_iff, Uses]

theorem separate (h : e.Operands s g x y z d) (he : e.Fits layout) : g.Separate := by
  unfold Gate.Separate
  rw [(h.real.map Term.wire).nodup_iff]
  simp [h.isX.wire_eq, h.isY.wire_eq, h.isZ.wire_eq, he.x_ne_y, he.x_ne_z, he.y_ne_z]

end Operands

end Equation

namespace Circuit

namespace Encodes

variable {s : Circuit c k} {layout : Layout} {es : List (Equation c)}

theorem nWires_eq (h : s.Encodes layout es) : s.nWires = layout.nWires := by
  rw [nWires, h.layout_eq]

theorem represents (h : s.Encodes layout es) : s.hints.Represents [] := by
  rw [h.hints_eq]
  exact HintMap.represents_empty

end Encodes

end Circuit

/-! ## Every list of equations has encodings -/

namespace Circuit

variable {layout : Layout} {es : List (Equation c)}

end Circuit

end CircuitWitness
