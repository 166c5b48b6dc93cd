import CircuitWitness.Field.Curve
import CircuitWitness.Field.Power
import Mathlib.NumberTheory.LucasPrimality
import Mathlib.Tactic.NormNum.Prime

/-! # The moduli are prime

    Both scalar fields have prime order, which is what makes an inverse out of
    a modular power.  A number is shown to be prime by a generator of its units:
    the power `n - 1` of the generator is `1`, and no power `(n - 1) / q` is, for
    the primes `q` that divide `n - 1`.  The powers are computed by
    `Field.power`.
-/

namespace CircuitWitness.Field

/-! ## Powers -/

theorem powerLow_eq (m : Nat) {bits a e : Nat} (h : e < 2 ^ bits) :
    powerLow m bits a e = a ^ e % m := by
  induction bits generalizing a e with
  | zero =>
    have hzero : e = 0 := by omega
    rw [powerLow, hzero, Nat.pow_zero]
  | succ bits ih =>
    have hhalf : e / 2 < 2 ^ bits := by
      rw [Nat.pow_succ] at h
      omega
    -- the exponent is halved and the base squared, and an odd bit takes one more factor
    have hsquare : (a * a % m) ^ (e / 2) % m = a ^ (2 * (e / 2)) % m := by
      rw [← Nat.pow_mod, Nat.pow_mul, Nat.pow_two]
    simp only [powerLow, ih hhalf, hsquare]
    split
    · rename_i hodd
      have hdigits : (2 * (e / 2)).succ = e := by omega
      rw [Nat.mul_mod_mod, ← Nat.pow_succ', hdigits]
    · rename_i heven
      have hdigits : 2 * (e / 2) = e := by omega
      rw [hdigits]

/-- The power is the residue of the power of integers, whatever the modulus. -/
theorem power_eq (m a e : Nat) : power m a e = a ^ e % m :=
  powerLow_eq m Nat.lt_log2_self

/-! ## Generators -/

/-- A number with a generator of order `n - 1` is prime.  The primes below have
    to include every prime divisor of `n - 1`. -/
theorem prime_of_generator {n : Nat} (g : Nat) (below : List Nat)
    (hprime : below.Forall Nat.Prime) (hbelow : n - 1 ∣ below.prod ^ 32)
    (hone : power n g (n - 1) = 1) (horder : ∀ q ∈ below, power n g ((n - 1) / q) ≠ 1) :
    n.Prime := by
  rw [List.forall_iff_forall_mem] at hprime
  -- a power of the generator is one in `ZMod n` when its residue is
  have hres : ∀ e, (g : ZMod n) ^ e = 1 ↔ power n g e = 1 % n := by
    intro e
    rw [power_eq, ← Nat.cast_pow, ← Nat.cast_one, ZMod.natCast_eq_natCast_iff']
  have hlt : 1 < n := by
    rcases Nat.lt_or_ge 1 n with h | h
    · exact h
    · rw [power_eq, Nat.sub_eq_zero_of_le h, pow_zero] at hone
      interval_cases n
      · have hdvd : (0 : Nat) ∣ below.prod ^ 32 := hbelow
        have hzero : below.prod = 0 := by simpa using hdvd
        obtain ⟨q, hq, rfl⟩ : ∃ q ∈ below, q = 0 := by simpa using hzero
        exact absurd (hprime 0 hq) Nat.not_prime_zero
      · simp at hone
  have hmod : 1 % n = 1 := Nat.mod_eq_of_lt hlt
  refine lucas_primality n g ((hres _).2 (by rw [hone, hmod])) ?_
  intro q hq hdvd
  obtain ⟨r, hr, hqr⟩ := (hq.prime.dvd_prod_iff).1 (hq.dvd_of_dvd_pow (hdvd.trans hbelow))
  have hqr' : q = r := (Nat.prime_dvd_prime_iff_eq hq (hprime r hr)).1 hqr
  subst hqr'
  intro hpow
  exact horder q hr (by rw [(hres _).1 hpow, hmod])

/-! ## Chains of generators

    A prime that divides `n - 1` is small, or was shown to be prime before. -/

/-- A number, a generator of its units, and the primes that divide its predecessor. -/
structure Generator where
  n : Nat
  g : Nat
  below : List Nat

/-- The generator shows that its number is prime, where the numbers `primes` are. -/
def Generator.Shows (primes : List Nat) (s : Generator) : Prop :=
  (∀ q ∈ s.below, q ∈ primes) ∧ s.n - 1 ∣ s.below.prod ^ 32 ∧ power s.n s.g (s.n - 1) = 1 ∧
    ∀ q ∈ s.below, power s.n s.g ((s.n - 1) / q) ≠ 1

instance (primes : List Nat) : DecidablePred (Generator.Shows primes) := fun _ => instDecidableAnd

/-- Every generator shows that its number is prime, where `primes` and the numbers
    before it are. -/
def Chain (primes : List Nat) : List Generator → Prop
  | [] => True
  | s :: rest => s.Shows primes ∧ Chain (s.n :: primes) rest

instance Chain.decidable : (primes : List Nat) → DecidablePred (Chain primes)
  | _, [] => isTrue trivial
  | primes, s :: rest =>
    have := Chain.decidable (s.n :: primes) rest
    inferInstanceAs (Decidable (s.Shows primes ∧ Chain (s.n :: primes) rest))

theorem prime_of_chain {primes : List Nat} {chain : List Generator} (h : Chain primes chain)
    (hprimes : ∀ p ∈ primes, p.Prime) : ∀ p ∈ chain.map Generator.n, p.Prime := by
  induction chain generalizing primes with
  | nil => simp
  | cons s rest ih =>
    obtain ⟨⟨hbelow, hdvd, hone, horder⟩, hrest⟩ := h
    -- the factors of the predecessor are primes from earlier in the chain
    have hs : s.n.Prime := by
      apply prime_of_generator s.g s.below _ hdvd hone horder
      rw [List.forall_iff_forall_mem]
      intro q hq
      exact hprimes q (hbelow q hq)
    have hall := ih hrest (List.forall_mem_cons.2 ⟨hs, hprimes⟩)
    rw [List.map_cons]
    exact List.forall_mem_cons.2 ⟨hs, hall⟩

/-- The primes on the way that trial division finds. -/
def smallPrimes : List Nat :=
  [2, 3, 5, 7, 11, 13, 19, 29, 43, 83, 107, 229, 379, 661, 823, 853, 983, 1637, 3691, 4999,
    10177, 11003, 93001, 110573, 125527, 237073, 609743, 859267, 906349, 1593227, 2508409,
    2529403]

theorem prime_of_mem_smallPrimes : ∀ p ∈ smallPrimes, p.Prime := by
  unfold smallPrimes
  norm_num

/-- The way to the moduli. -/
def generators : List Generator :=
  [⟨405928799, 22, [2, 11, 3691, 4999]⟩,
    ⟨12048837557, 2, [2, 7, 661, 93001]⟩,
    ⟨5156902474397, 2, [2, 107, 12048837557]⟩,
    ⟨1670836401704629, 2, [2, 3, 5156902474397]⟩,
    ⟨639533339, 2, [2, 229, 853, 1637]⟩,
    ⟨65865678001877903, 5, [2, 83, 379, 1637, 639533339]⟩,
    ⟨13818364434197438864469338081, 3, [2, 5, 823, 1593227, 65865678001877903]⟩,
    ⟨Curve.bn254.modulus, 5, [2, 3, 13, 29, 983, 11003, 237073, 405928799, 1670836401704629,
      13818364434197438864469338081]⟩,
    ⟨52437899, 2, [2, 43, 609743]⟩,
    ⟨2653753, 5, [2, 3, 110573]⟩,
    ⟨63690073, 7, [2, 3, 2653753]⟩,
    ⟨254760293, 2, [2, 63690073]⟩,
    ⟨Curve.bls12_381.modulus, 7, [2, 3, 11, 19, 10177, 125527, 859267, 906349, 2508409, 2529403,
      52437899, 254760293]⟩]

theorem chain_generators : Chain smallPrimes generators := by
  decide +kernel

end CircuitWitness.Field

namespace CircuitWitness.Curve

open CircuitWitness.Field

/-- The order of the scalar field is prime. -/
theorem prime_modulus (c : Curve) : c.modulus.Prime := by
  apply prime_of_chain chain_generators prime_of_mem_smallPrimes
  cases c with
  | bn254 => simp [generators]
  | bls12_381 => simp [generators]

end CircuitWitness.Curve
