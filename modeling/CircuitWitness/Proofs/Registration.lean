import CircuitWitness.Proofs.Identification

/-! # The history of a registry

    A registry is used by requests in any order: functions are registered, looked up,
    called, listed and counted.  Of all functions that were ever offered under an
    identifier the registry keeps the first, under that identifier (`Registry.Keeps`).
    A registration that is refused stops its caller while it holds the lock; all that
    is left of it is that the lock is poisoned, and no later reply tells that from a
    lock that is not (`Registry.Session.SameContents`).  Listing gives a snapshot, which
    later registrations do not reach.

    So the functions of a registry never repeat an identifier, and no solve is refused for
    them.
-/

namespace CircuitWitness

open Solving

/-- The first of the functions under an identifier. -/
def firstWith (functions : List HintFunction) (id : HintId) : Option HintFunction :=
  functions.find? fun h => h.id == id

theorem firstWith_eq_none_iff {functions : List HintFunction} {id : HintId} :
    firstWith functions id = none ↔ id ∉ functions.map HintFunction.id := by
  unfold firstWith
  rw [List.find?_eq_none, List.mem_map]
  simp

/-- Looking up an identifier is searching for it if every function stands under its own. -/
theorem lookup_map_id (functions : List HintFunction) (id : HintId) :
    (functions.map fun h => (h.id, h)).lookup id = firstWith functions id := by
  induction functions with
  | nil => rfl
  | cons h rest ih =>
    unfold firstWith at ih ⊢
    rw [List.map_cons, List.lookup_cons, List.find?_cons, ih, BEq.comm]

namespace Registry

/-! ## Requests -/

/-- What a registry can be asked for. -/
inductive Request where
  | register (h : HintFunction)
  | get (id : HintId)
  | snapshot
  | size
  /-- The function with an identifier is looked up and called on a buffer. -/
  | call (id : HintId) (curve : Curve) (inputs outputs : List Nat)

/-- The functions that a request offers to the registry. -/
def Request.offered : Request → List HintFunction
  | register h => [h]
  | _ => []

/-- What a registry can answer. -/
inductive Reply where
  | registered (id : HintId)
  /-- The registration stopped at a fault. -/
  | refused (f : Fault)
  | found (h : Option HintFunction)
  | listed (functions : List HintFunction)
  | counted (n : Nat)
  | called (result : Option (List Nat × Except HintError Unit))

namespace Reply

/-- The reply to a registration that succeeded. -/
def isRegistered : Reply → Bool
  | registered _ => true
  | _ => false

/-- The reply to a registration that stopped at a fault. -/
def isRefused : Reply → Bool
  | refused _ => true
  | _ => false

end Reply

/-- The functions that requests offered and that were registered, by the replies. -/
def accepted (requests : List Request) (replies : List Reply) : List HintFunction :=
  (requests.zip replies).flatMap fun (q, reply) => if reply.isRegistered then q.offered else []

/-- A registry in use. -/
structure Session where
  registry : Registry
  /-- The snapshots that were taken so far, in this order. -/
  snapshots : List (List HintFunction)
  /-- The lines of the trace so far. -/
  reported : List Registered

namespace Session

/-- Answers a request.  The registry goes on from where the request left it, also if that
    stopped at a fault. -/
def perform (s : Session) : Request → Reply × Session
  | .register h =>
    let x := s.registry.register h
    let s := { s with registry := x.registry, reported := s.reported ++ x.reported }
    match x.result with
    | .ok id => (.registered id, s)
    | .error f => (.refused f, s)
  | .get id => (.found (s.registry.get? id), s)
  | .snapshot =>
    let functions := s.registry.snapshot
    (.listed functions, { s with snapshots := s.snapshots ++ [functions] })
  | .size => (.counted s.registry.size, s)
  | .call id curve inputs outputs =>
    (.called ((s.registry.get? id).map fun h => h.call curve inputs outputs), s)

/-- Answers requests one after another. -/
def performAll (s : Session) : List Request → List Reply × Session
  | [] => ([], s)
  | q :: rest =>
    let (reply, s) := s.perform q
    let (replies, s) := s.performAll rest
    (reply :: replies, s)

end Session

/-- What a new registry can have. -/
inductive Opening where
  | nothing
  | builtins
  deriving DecidableEq

/-- The functions that a new registry has. -/
def Opening.functions : Opening → List HintFunction
  | nothing => []
  | builtins => [.isZero, .ithBit, .invZero, .div]

/-- The session of a new registry. -/
def Opening.session : Opening → Session
  | nothing => ⟨.empty, [], []⟩
  | builtins => ⟨.withBuiltins, [], registerBuiltins.reported⟩

/-- The functions that a registry was offered: those that it had to start with, and those
    of the requests. -/
def offeredTo (opening : Opening) (requests : List Request) : List HintFunction :=
  opening.functions ++ requests.flatMap Request.offered

/-! ## A registration -/

section Register

variable {r : Registry} {h existing : HintFunction}

@[simp] theorem handlers_poison (r : Registry) : r.poison.handlers = r.handlers := by
  simp [handlers, poison, Lock.poison]

@[simp] theorem functions_poison (r : Registry) : r.poison.functions = r.functions := by
  rw [functions, functions, handlers_poison]

/-- A function whose identifier is free comes last. -/
theorem handlers_enter (hfree : r.get? h.id = none) :
    (r.enter h).handlers = r.handlers ++ [(h.id, h)] := by
  have hkeys : h.id ∉ r.handlers.map Prod.fst := by
    intro hmem
    obtain ⟨entry, hentry, hid⟩ := List.mem_map.1 hmem
    have hne := List.lookup_eq_none_iff.1 hfree entry hentry
    simp [hid] at hne
  rw [← Assoc.put_of_not_mem hkeys h]
  exact Lock.recover_eq _

theorem functions_enter (hfree : r.get? h.id = none) :
    (r.enter h).functions = r.functions ++ [h] := by
  rw [functions, handlers_enter hfree, List.map_append]
  rfl

theorem register_of_taken (htaken : r.get? h.id = some existing) :
    r.register h = ⟨.error (.registeredTwice h.name h.id existing.name), r.poison, []⟩ := by
  rw [register, htaken]

theorem register_of_free (hfree : r.get? h.id = none) :
    r.register h = ⟨.ok h.id, r.enter h, [h.registered]⟩ := by
  rw [register, hfree]

theorem size_eq (r : Registry) : r.size = r.functions.length := (List.length_map _).symm

end Register

/-! ## What is kept -/

/-- The registry has the first function of every identifier that was offered. -/
structure Keeps (r : Registry) (offered : List HintFunction) : Prop where
  /-- Every function is kept under its own identifier. -/
  keyed : r.handlers = r.functions.map fun h => (h.id, h)
  nodup : (r.functions.map HintFunction.id).Nodup
  get?_eq : ∀ id, r.get? id = firstWith offered id

section Keeps

variable {r : Registry} {offered : List HintFunction} {h : HintFunction}

theorem keeps_empty : Registry.empty.Keeps [] where
  keyed := rfl
  nodup := List.nodup_nil
  get?_eq _ := rfl

/-- A function that comes second under its identifier is no first. -/
theorem Keeps.of_taken (hr : r.Keeps offered) {existing : HintFunction}
    (htaken : firstWith offered h.id = some existing) : r.poison.Keeps (offered ++ [h]) := by
  constructor
  case keyed => rw [handlers_poison, functions_poison, ← hr.keyed]
  case nodup => rw [functions_poison]; exact hr.nodup
  case get?_eq =>
    intro id
    have hget := hr.get?_eq id
    unfold get? at hget ⊢
    rw [handlers_poison, hget, firstWith, firstWith, List.find?_append]
    -- the function offered last is not the first under its identifier
    cases hfind : offered.find? fun g => g.id == id with
    | some g => rfl
    | none =>
      have hne : h.id ≠ id := by
        rintro rfl
        rw [firstWith, hfind] at htaken
        cases htaken
      simp [hne]

theorem Keeps.of_free (hr : r.Keeps offered) (hfree : r.get? h.id = none) :
    (r.enter h).Keeps (offered ++ [h]) := by
  have hfunctions := functions_enter hfree
  have hkeyed : (r.enter h).handlers = (r.enter h).functions.map fun h => (h.id, h) := by
    rw [hfunctions, handlers_enter hfree, List.map_append, ← hr.keyed]
    rfl
  -- the free identifier is that of no function, so nothing is repeated
  have hnone : firstWith r.functions h.id = none := by
    rw [← lookup_map_id, ← hr.keyed]
    exact hfree
  constructor
  case keyed => exact hkeyed
  case nodup =>
    rw [hfunctions]
    exact HintFunction.nodup_append hnone hr.nodup
  case get?_eq =>
    intro id
    have hget := hr.get?_eq id
    unfold get? at hget ⊢
    rw [hr.keyed, lookup_map_id] at hget
    rw [hkeyed, hfunctions, lookup_map_id]
    unfold firstWith at hget ⊢
    rw [List.find?_append, List.find?_append, hget]

end Keeps

/-! ## The builtin functions -/

/-- The builtin functions have identifiers of their own. -/
theorem nodup_builtins : (HintFunction.builtins.map HintFunction.id).Nodup := by
  decide +kernel

/-- All of the functions were registered in an empty registry, in this order. -/
structure Fills (x : Registration) (functions : List HintFunction) : Prop where
  accepted : ∃ id, x.result = .ok id
  keeps : x.registry.Keeps functions
  functions_eq : x.registry.functions = functions
  unpoisoned : x.registry.lock.poisoned = false
  reported_eq : x.reported = functions.map HintFunction.registered

theorem fills_register (h : HintFunction) : Fills (empty.register h) [h] where
  accepted := ⟨h.id, rfl⟩
  keeps := keeps_empty.of_free rfl
  functions_eq := rfl
  unpoisoned := rfl
  reported_eq := rfl

/-- One more function is registered if its identifier is free. -/
theorem Fills.andThen {x : Registration} {functions : List HintFunction} {h : HintFunction}
    (hx : Fills x functions) (hfree : h.id ∉ functions.map HintFunction.id) :
    Fills (x.andThen h) (functions ++ [h]) := by
  obtain ⟨id, hid⟩ := hx.accepted
  -- all of the functions so far were offered, and none has this identifier
  have hnone : x.registry.get? h.id = none := by
    rw [hx.keeps.get?_eq, firstWith_eq_none_iff]
    exact hfree
  have hthen : x.andThen h =
      ⟨.ok h.id, x.registry.enter h, x.reported ++ [h.registered]⟩ := by
    simp only [Registration.andThen, hid, register_of_free hnone]
  rw [hthen]
  constructor
  case accepted => exact ⟨h.id, rfl⟩
  case keeps => exact hx.keeps.of_free hnone
  case functions_eq => rw [functions_enter hnone, hx.functions_eq]
  case unpoisoned => exact hx.unpoisoned
  case reported_eq =>
    rw [hx.reported_eq, List.map_append]
    rfl

/-- None of the four registrations is refused. -/
theorem fills_registerBuiltins : Fills registerBuiltins HintFunction.builtins := by
  have hids := nodup_builtins
  unfold HintFunction.builtins at hids ⊢
  -- a function that stands later in the list has an identifier that is free so far
  have hfirst := fills_register .isZero
  have hsecond := hfirst.andThen (not_mem_of_nodup hids)
  have hthird := hsecond.andThen (not_mem_of_nodup hids)
  exact hthird.andThen (not_mem_of_nodup hids)

theorem functions_withBuiltins : withBuiltins.functions = HintFunction.builtins :=
  fills_registerBuiltins.functions_eq

theorem size_withBuiltins : withBuiltins.size = 4 := by
  rw [size_eq, functions_withBuiltins]
  rfl

/-! ## Sessions -/

namespace Session

variable {s t : Session} {offered : List HintFunction}

theorem perform_of_taken {h existing : HintFunction}
    (htaken : s.registry.get? h.id = some existing) :
    s.perform (.register h) = (.refused (.registeredTwice h.name h.id existing.name),
      { s with registry := s.registry.poison }) := by
  simp only [perform, register_of_taken htaken, List.append_nil]

theorem perform_of_free {h : HintFunction} (hfree : s.registry.get? h.id = none) :
    s.perform (.register h) = (.registered h.id, { s with
      registry := s.registry.enter h
      reported := s.reported ++ [h.registered] }) := by
  simp only [perform, register_of_free hfree]

/-- A registration is refused if its identifier is taken; then the fault names the function
    that has it, and the lock is poisoned.  Else the function is entered. -/
theorem register_cases (s : Session) (h : HintFunction) :
    (∃ existing, s.registry.get? h.id = some existing ∧ s.perform (.register h) =
        (.refused (.registeredTwice h.name h.id existing.name),
          { s with registry := s.registry.poison })) ∨
      s.registry.get? h.id = none ∧ s.perform (.register h) =
        (.registered h.id, { s with
          registry := s.registry.enter h
          reported := s.reported ++ [h.registered] }) := by
  cases hget : s.registry.get? h.id with
  | some existing => exact .inl ⟨existing, rfl, perform_of_taken hget⟩
  | none => exact .inr ⟨rfl, perform_of_free hget⟩

/-- The request offers nothing, and it leaves the registry and what was reported. -/
structure Reads (s : Session) (q : Request) : Prop where
  offered_eq : q.offered = []
  isRegistered_eq : (s.perform q).1.isRegistered = false
  isRefused_eq : (s.perform q).1.isRefused = false
  registry_eq : (s.perform q).2.registry = s.registry
  reported_eq : (s.perform q).2.reported = s.reported
  snapshots_le : s.snapshots <+: (s.perform q).2.snapshots

/-- A request is a registration, refused or not, or it only reads. -/
theorem perform_cases (s : Session) (q : Request) :
    (∃ h existing, q = .register h ∧ s.registry.get? h.id = some existing ∧
      s.perform q = (.refused (.registeredTwice h.name h.id existing.name),
        { s with registry := s.registry.poison })) ∨
    (∃ h, q = .register h ∧ s.registry.get? h.id = none ∧
      s.perform q = (.registered h.id, { s with
        registry := s.registry.enter h
        reported := s.reported ++ [h.registered] })) ∨
    s.Reads q := by
  cases q with
  | register h =>
    rcases s.register_cases h with ⟨existing, htaken, hperform⟩ | ⟨hfree, hperform⟩
    · exact .inl ⟨h, existing, rfl, htaken, hperform⟩
    · exact .inr (.inl ⟨h, rfl, hfree, hperform⟩)
  | get id => exact .inr (.inr ⟨rfl, rfl, rfl, rfl, rfl, List.prefix_rfl⟩)
  | snapshot => exact .inr (.inr ⟨rfl, rfl, rfl, rfl, rfl, List.prefix_append _ _⟩)
  | size => exact .inr (.inr ⟨rfl, rfl, rfl, rfl, rfl, List.prefix_rfl⟩)
  | call id curve inputs outputs =>
    exact .inr (.inr ⟨rfl, rfl, rfl, rfl, rfl, List.prefix_rfl⟩)

theorem keeps_perform (hs : s.registry.Keeps offered) (q : Request) :
    (s.perform q).2.registry.Keeps (offered ++ q.offered) := by
  rcases s.perform_cases q with ⟨h, existing, rfl, htaken, hperform⟩ |
    ⟨h, rfl, hfree, hperform⟩ | hreads
  · rw [hperform]
    exact hs.of_taken ((hs.get?_eq h.id).symm.trans htaken)
  · rw [hperform]
    exact hs.of_free hfree
  · rw [hreads.registry_eq, hreads.offered_eq, List.append_nil]
    exact hs

theorem keeps_performAll (hs : s.registry.Keeps offered) (requests : List Request) :
    (s.performAll requests).2.registry.Keeps (offered ++ requests.flatMap Request.offered) := by
  induction requests generalizing s offered with
  | nil => exact (List.append_nil offered).symm ▸ hs
  | cons q rest ih =>
    rw [List.flatMap_cons, ← List.append_assoc]
    exact ih (keeps_perform hs q)

theorem performAll_append (s : Session) (before after : List Request) :
    (s.performAll (before ++ after)).2 = ((s.performAll before).2.performAll after).2 := by
  induction before generalizing s with
  | nil => rfl
  | cons q rest ih => exact ih (s.perform q).2

/-- A function is refused if and only if its identifier was offered already. -/
theorem refused_iff_of_keeps (s : Session) (hs : s.registry.Keeps offered) (h : HintFunction) :
    (∃ f, (s.perform (.register h)).1 = .refused f) ↔ h.id ∈ offered.map HintFunction.id := by
  have hnone : s.registry.get? h.id = none ↔ h.id ∉ offered.map HintFunction.id := by
    rw [hs.get?_eq, firstWith_eq_none_iff]
  rcases s.register_cases h with ⟨existing, htaken, hperform⟩ | ⟨hfree, hperform⟩
  · rw [hperform]
    rw [htaken] at hnone
    simpa using hnone
  · rw [hperform]
    simpa using hnone.1 hfree

/-! ### What a refusal leaves behind -/

/-- The sessions differ at most in whether the lock is poisoned. -/
structure SameContents (s t : Session) : Prop where
  handlers_eq : s.registry.handlers = t.registry.handlers
  pool_eq : s.registry.pool = t.registry.pool
  snapshots_eq : s.snapshots = t.snapshots
  reported_eq : s.reported = t.reported

/-- A poisoned lock is not noticed: every request is answered alike, and what it leaves
    behind is alike again. -/
theorem SameContents.perform (hsame : s.SameContents t) (q : Request) :
    (s.perform q).1 = (t.perform q).1 ∧ (s.perform q).2.SameContents (t.perform q).2 := by
  have hfunctions : s.registry.functions = t.registry.functions :=
    congrArg (List.map Prod.snd) hsame.handlers_eq
  have hget : ∀ id, s.registry.get? id = t.registry.get? id := by
    intro id
    rw [get?, get?, hsame.handlers_eq]
  cases q with
  | register h =>
    -- both registries have the same functions, so both refuse or neither does
    cases hs : s.registry.get? h.id with
    | some existing =>
      have ht : t.registry.get? h.id = some existing := (hget h.id).symm.trans hs
      rw [perform_of_taken hs, perform_of_taken ht]
      refine ⟨rfl, ?_, hsame.pool_eq, hsame.snapshots_eq, hsame.reported_eq⟩
      rw [handlers_poison, handlers_poison, hsame.handlers_eq]
    | none =>
      have ht : t.registry.get? h.id = none := (hget h.id).symm.trans hs
      rw [perform_of_free hs, perform_of_free ht]
      refine ⟨rfl, ?_, hsame.pool_eq, hsame.snapshots_eq, ?_⟩
      · rw [handlers_enter hs, handlers_enter ht, hsame.handlers_eq]
      · rw [hsame.reported_eq]
  | get id => exact ⟨congrArg Reply.found (hget id), hsame⟩
  | snapshot =>
    have hsnapshot : s.registry.snapshot = t.registry.snapshot := by
      rw [snapshot, snapshot, hfunctions]
    refine ⟨congrArg Reply.listed hsnapshot, hsame.handlers_eq, hsame.pool_eq, ?_,
      hsame.reported_eq⟩
    -- the lists of snapshots grow by the same list
    show s.snapshots ++ [_] = t.snapshots ++ [_]
    rw [hsame.snapshots_eq, hsnapshot]
  | size =>
    refine ⟨congrArg Reply.counted ?_, hsame⟩
    rw [size_eq, size_eq, hfunctions]
  | call id curve inputs outputs =>
    refine ⟨congrArg Reply.called ?_, hsame⟩
    rw [hget]

theorem SameContents.performAll (hsame : s.SameContents t) (requests : List Request) :
    (s.performAll requests).1 = (t.performAll requests).1 ∧
      (s.performAll requests).2.SameContents (t.performAll requests).2 := by
  induction requests generalizing s t with
  | nil => exact ⟨rfl, hsame⟩
  | cons q rest ih =>
    obtain ⟨hreply, hnext⟩ := hsame.perform q
    obtain ⟨hreplies, hlast⟩ := ih hnext
    exact ⟨congrArg₂ List.cons hreply hreplies, hlast⟩

/-- A refusal names the first function of those that were offered.  It poisons the lock, and
    leaves everything else as it was. -/
theorem refused_of_keeps (s : Session) (hs : s.registry.Keeps offered) {h : HintFunction}
    {f : Fault} (hf : (s.perform (.register h)).1 = .refused f) :
    (s.perform (.register h)).2.SameContents s ∧
      (s.perform (.register h)).2.registry.lock.poisoned = true ∧
      ∃ existing, firstWith offered h.id = some existing ∧
        f = .registeredTwice h.name h.id existing.name := by
  rcases s.register_cases h with ⟨existing, htaken, hperform⟩ | ⟨-, hperform⟩
  · rw [hperform] at hf ⊢
    cases hf
    exact ⟨⟨handlers_poison _, rfl, rfl, rfl⟩, rfl, existing,
      (hs.get?_eq h.id).symm.trans htaken, rfl⟩
  · rw [hperform] at hf
    cases hf

/-- The lock is poisoned by refusals and by nothing else, and stays so. -/
theorem poisoned_perform (s : Session) (q : Request) :
    (s.perform q).2.registry.lock.poisoned =
      (s.registry.lock.poisoned || (s.perform q).1.isRefused) := by
  rcases s.perform_cases q with ⟨h, existing, -, -, hperform⟩ | ⟨h, -, -, hperform⟩ | hreads
  · rw [hperform]
    exact (Bool.or_true _).symm
  · rw [hperform]
    exact (Bool.or_false _).symm
  · rw [hreads.registry_eq, hreads.isRefused_eq, Bool.or_false]

theorem poisoned_performAll (s : Session) (requests : List Request) :
    (s.performAll requests).2.registry.lock.poisoned =
      (s.registry.lock.poisoned || (s.performAll requests).1.any Reply.isRefused) := by
  induction requests generalizing s with
  | nil => exact (Bool.or_false _).symm
  | cons q rest ih =>
    have hrest := ih (s.perform q).2
    rw [poisoned_perform, Bool.or_assoc] at hrest
    exact hrest

/-! ### What is registered and reported -/

/-- A request registers what it offers or nothing, as its reply says, and reports as much. -/
theorem functions_perform (s : Session) (q : Request) :
    (s.perform q).2.registry.functions =
        s.registry.functions ++ (if (s.perform q).1.isRegistered then q.offered else []) ∧
      (s.perform q).2.reported = s.reported ++
        (if (s.perform q).1.isRegistered then q.offered else []).map HintFunction.registered := by
  rcases s.perform_cases q with ⟨h, existing, -, -, hperform⟩ |
    ⟨h, rfl, hfree, hperform⟩ | hreads
  · rw [hperform]
    exact ⟨(functions_poison _).trans (List.append_nil _).symm, (List.append_nil _).symm⟩
  · rw [hperform]
    exact ⟨functions_enter hfree, rfl⟩
  · -- what only reads is not answered as a registration
    rw [hreads.registry_eq, hreads.reported_eq, hreads.isRegistered_eq]
    exact ⟨(List.append_nil _).symm, (List.append_nil _).symm⟩

theorem functions_performAll (s : Session) (requests : List Request) :
    (s.performAll requests).2.registry.functions =
        s.registry.functions ++ accepted requests (s.performAll requests).1 ∧
      (s.performAll requests).2.reported = s.reported ++
        (accepted requests (s.performAll requests).1).map HintFunction.registered := by
  induction requests generalizing s with
  | nil => exact ⟨(List.append_nil _).symm, (List.append_nil _).symm⟩
  | cons q rest ih =>
    obtain ⟨hfunctions, hreported⟩ := s.functions_perform q
    obtain ⟨hrest, hrest'⟩ := ih (s.perform q).2
    simp only [performAll, accepted, List.zip_cons_cons, List.flatMap_cons, List.map_append,
      ← List.append_assoc]
    rw [← hfunctions, ← hreported]
    exact ⟨hrest, hrest'⟩

/-- A registration that succeeds is told from the others by its reply, so that the replies
    count the functions. -/
theorem length_accepted (s : Session) (requests : List Request) :
    (accepted requests (s.performAll requests).1).length =
      (s.performAll requests).1.countP Reply.isRegistered := by
  induction requests generalizing s with
  | nil => rfl
  | cons q rest ih =>
    simp only [performAll, accepted, List.zip_cons_cons, List.flatMap_cons, List.length_append,
      List.countP_cons]
    -- the replies are counted one by one, as the functions are
    rw [Nat.add_comm]
    refine congrArg₂ (· + ·) (ih _) ?_
    rcases s.perform_cases q with ⟨h, existing, -, -, hperform⟩ | ⟨h, rfl, -, hperform⟩ | hreads
    · rw [hperform]
      rfl
    · rw [hperform]
      rfl
    · rw [hreads.isRegistered_eq]
      rfl

/-! ### Snapshots -/

/-- The snapshots that were taken stay as they are. -/
theorem snapshots_perform (s : Session) (q : Request) :
    s.snapshots <+: (s.perform q).2.snapshots := by
  rcases s.perform_cases q with ⟨h, existing, -, -, hperform⟩ | ⟨h, -, -, hperform⟩ | hreads
  · rw [hperform]
  · rw [hperform]
  · exact hreads.snapshots_le

theorem snapshots_performAll (s : Session) (requests : List Request) :
    s.snapshots <+: (s.performAll requests).2.snapshots := by
  induction requests generalizing s with
  | nil => exact List.prefix_rfl
  | cons q rest ih => exact (s.snapshots_perform q).trans (ih (s.perform q).2)

/-- A snapshot is found at its place whatever was asked for after it. -/
theorem getElem?_snapshots (s : Session) (before after : List Request) :
    (s.performAll (before ++ .snapshot :: after)).2.snapshots[
        (s.performAll before).2.snapshots.length]? =
      some (s.performAll before).2.registry.snapshot := by
  rw [performAll_append]
  generalize (s.performAll before).2 = mid
  have hkept := (mid.perform .snapshot).2.snapshots_performAll after
  have htaken : (mid.perform .snapshot).2.snapshots[mid.snapshots.length]? =
      some mid.registry.snapshot := List.getElem?_concat_length
  -- the snapshots after it come later in the list
  obtain ⟨later, hlater⟩ := hkept
  obtain ⟨hlt, -⟩ := List.getElem?_eq_some_iff.1 htaken
  show ((mid.perform .snapshot).2.performAll after).2.snapshots[mid.snapshots.length]? = _
  rw [← hlater, List.getElem?_append_left hlt, htaken]

end Session

/-- A new registry has just the functions that it starts with. -/
structure Opens (opening : Opening) (s : Session) : Prop where
  keeps : s.registry.Keeps opening.functions
  functions_eq : s.registry.functions = opening.functions
  unpoisoned : s.registry.lock.poisoned = false
  reported_eq : s.reported = opening.functions.map HintFunction.registered

theorem opens_session (opening : Opening) : Opens opening opening.session := by
  cases opening with
  | nothing => exact ⟨keeps_empty, rfl, rfl, rfl⟩
  | builtins =>
    have hsession : Opening.builtins.session =
        ⟨registerBuiltins.registry, [], registerBuiltins.reported⟩ := by
      rw [Opening.session, withBuiltins]
    have hfills := fills_registerBuiltins
    -- the identifiers are digests, which are not to be computed again
    generalize registerBuiltins = x at hsession hfills
    rw [hsession]
    exact ⟨hfills.keeps, hfills.functions_eq, hfills.unpoisoned, hfills.reported_eq⟩

/-- `functions` are the first ones of their identifiers among those that were offered. -/
structure ListsFirsts (offered functions : List HintFunction) : Prop where
  /-- There is one function for an identifier, -/
  nodup : (functions.map HintFunction.id).Nodup
  /-- and there is one for every identifier. -/
  ids : ∀ id, id ∈ functions.map HintFunction.id ↔ id ∈ offered.map HintFunction.id
  mem_iff : ∀ h, h ∈ functions ↔ firstWith offered h.id = some h

theorem Keeps.firstWith_eq {r : Registry} {offered : List HintFunction} (hr : r.Keeps offered)
    (id : HintId) : firstWith r.functions id = firstWith offered id := by
  rw [← lookup_map_id, ← hr.keyed]
  exact hr.get?_eq id

theorem Keeps.listsFirsts {r : Registry} {offered functions : List HintFunction}
    (hr : r.Keeps offered) (hperm : functions.Perm r.functions) :
    ListsFirsts offered functions := by
  -- a snapshot lists the functions in another order, which its properties do not depend on
  have hids := hperm.map HintFunction.id
  constructor
  case nodup => exact hids.nodup_iff.2 hr.nodup
  case ids =>
    intro id
    rw [hids.mem_iff, ← not_iff_not, ← firstWith_eq_none_iff, ← firstWith_eq_none_iff,
      hr.firstWith_eq]
  case mem_iff =>
    intro h
    have hfind : firstWith r.functions h.id = some h ↔ h ∈ r.functions ∧ h.id = h.id :=
      HintTable.find?_eq_some_iff (t := ⟨r.functions⟩) hr.nodup
    rw [hperm.mem_iff, ← hr.firstWith_eq]
    exact (hfind.trans (and_iff_left rfl)).symm

/-! ## The history -/

/-- What a session with a new registry replies after requests, which were answered by
    `replies`. -/
structure Recounts (opening : Opening) (requests : List Request) (replies : List Reply)
    (s : Session) : Prop where
  /-- Every function is kept under its own identifier, and no two under one. -/
  keyed : s.registry.handlers = s.registry.functions.map fun h => (h.id, h)
  /-- The registry has the functions that it started with, and those that were accepted. -/
  functions_eq : s.registry.functions = opening.functions ++ accepted requests replies
  /-- Every registration that succeeded is reported, and no other. -/
  reported_eq : s.reported =
    (opening.functions ++ accepted requests replies).map HintFunction.registered
  /-- A registration is refused if and only if its identifier was offered before. -/
  refused_iff : ∀ h, (∃ f, (s.perform (.register h)).1 = .refused f) ↔
    h.id ∈ (offeredTo opening requests).map HintFunction.id
  /-- A refusal names the first function with the identifier. -/
  refused : ∀ h f, (s.perform (.register h)).1 = .refused f →
    ∃ existing, firstWith (offeredTo opening requests) h.id = some existing ∧
      f = .registeredTwice h.name h.id existing.name
  /-- It changes nothing but the lock, which it poisons, -/
  unchanged : ∀ h f, (s.perform (.register h)).1 = .refused f →
    (s.perform (.register h)).2.SameContents s ∧
      (s.perform (.register h)).2.registry.lock.poisoned = true
  /-- and all later requests are answered as if it had not been made. -/
  usable : ∀ h f later, (s.perform (.register h)).1 = .refused f →
    ((s.perform (.register h)).2.performAll later).1 = (s.performAll later).1
  /-- The lock is poisoned if and only if a registration was refused. -/
  poisoned_eq : s.registry.lock.poisoned = replies.any Reply.isRefused
  get_eq : ∀ id, s.perform (.get id) = (.found (firstWith (offeredTo opening requests) id), s)
  call_eq : ∀ id curve inputs outputs, s.perform (.call id curve inputs outputs) =
    (.called ((firstWith (offeredTo opening requests) id).map fun h =>
      h.call curve inputs outputs), s)
  size_eq : s.perform .size =
    (.counted (opening.functions.length + replies.countP Reply.isRegistered), s)
  /-- Every snapshot that was taken lists the functions that were offered before it. -/
  snapshots : ∀ before after, requests = before ++ .snapshot :: after →
    ∃ functions,
      s.snapshots[(opening.session.performAll before).2.snapshots.length]? = some functions ∧
      ListsFirsts (offeredTo opening before) functions
  /-- In whatever order the functions are listed, they make a table. -/
  tabled : ∀ functions, functions.Perm s.registry.functions →
    HintTable.ofList functions = .ok ⟨functions⟩
  /-- A solve without functions of its own is not refused because of the registry. -/
  solved : ∀ {c : Curve} {k : Kind} (circuit : Circuit c k) (assignment : List (Scalar c))
    (options : SolverOptions), options.hintFunctions = [] → ∀ id name,
      (circuit.solve assignment s.registry options).result ≠
        .error (.error (.duplicateHint id name))

end Registry

open Registry in
/-- After any requests to a registry that was empty or had the four builtin functions, the
    registry has the first function that was offered under every identifier.  A registration
    that was refused left nothing behind but a poisoned lock, which nobody notices. -/
theorem registry_recounts (opening : Opening) (requests : List Registry.Request) :
    Recounts opening requests (opening.session.performAll requests).1
      (opening.session.performAll requests).2 := by
  have hopens := opens_session opening
  -- what the registry keeps is known after every part of the history
  have hkeeps := fun requests => Session.keeps_performAll hopens.keeps requests
  obtain ⟨hfunctions, hreported⟩ := opening.session.functions_performAll requests
  have hlength := opening.session.length_accepted requests
  have hpoisoned := opening.session.poisoned_performAll requests
  have hsnapshots := fun before after (h : requests = before ++ .snapshot :: after) =>
    h ▸ opening.session.getElem?_snapshots before after
  rw [hopens.functions_eq] at hfunctions
  rw [hopens.reported_eq, ← List.map_append] at hreported
  rw [hopens.unpoisoned, Bool.false_or] at hpoisoned
  have hs := hkeeps requests
  have hget := hs.get?_eq
  change ∀ id, _ = firstWith (offeredTo opening requests) id at hget
  -- from here on only the facts about the replies and the session count
  generalize (opening.session.performAll requests).1 = replies
    at hfunctions hreported hlength hpoisoned ⊢
  generalize (opening.session.performAll requests).2 = s
    at hs hget hfunctions hreported hpoisoned hsnapshots ⊢
  constructor
  case keyed => exact hs.keyed
  case functions_eq => exact hfunctions
  case reported_eq => exact hreported
  case refused_iff => exact s.refused_iff_of_keeps hs
  case refused =>
    intro h f hf
    exact (s.refused_of_keeps hs hf).2.2
  case unchanged =>
    intro h f hf
    obtain ⟨hsame, hlock, -⟩ := s.refused_of_keeps hs hf
    exact ⟨hsame, hlock⟩
  case usable =>
    -- a refusal leaves the contents, and replies depend on these alone
    intro h f later hf
    exact ((s.refused_of_keeps hs hf).1.performAll later).1
  case poisoned_eq => exact hpoisoned
  case get_eq =>
    intro id
    rw [Session.perform, hget]
  case call_eq =>
    intro id curve inputs outputs
    rw [Session.perform, hget]
  case size_eq =>
    rw [Session.perform, size_eq, hfunctions, List.length_append, hlength]
  case snapshots =>
    intro before after h
    exact ⟨_, hsnapshots before after h, (hkeeps before).listsFirsts (snapshot_perm _)⟩
  case tabled =>
    intro functions hperm
    exact HintTable.ofList_eq_ok ((hperm.map HintFunction.id).nodup_iff.2 hs.nodup)
  case solved =>
    intro c k circuit assignment options hown id name
    apply Circuit.solve_ne_duplicateHint
    rw [hown, List.append_nil]
    exact hs.nodup

/-- Another function comes second under the identifier of the first one, after a snapshot. -/
def Registry.sampleRequests : List Registry.Request :=
  [.register .successor, .snapshot, .register { HintFunction.idle with id := ⟨7⟩ },
    .register .idle]

open Registry in
/-- The second function is refused and the third is not, although the lock is poisoned then. -/
theorem registry_recounts_sample :
    ∃ s : Session, (Opening.nothing.session.performAll sampleRequests).2 = s ∧
      s.registry.lock.poisoned = true ∧
      s.perform (.get ⟨7⟩) = (.found (some .successor), s) ∧
      s.perform .size = (.counted 2, s) ∧
      ∃ functions, s.snapshots[0]? = some functions ∧ ListsFirsts [.successor] functions := by
  have hrecounts := registry_recounts .nothing sampleRequests
  obtain ⟨functions, hfunctions⟩ := hrecounts.snapshots [.register .successor]
    [.register { HintFunction.idle with id := ⟨7⟩ }, .register .idle] rfl
  exact ⟨_, rfl, hrecounts.poisoned_eq, hrecounts.get_eq ⟨7⟩, hrecounts.size_eq, functions,
    hfunctions⟩

end CircuitWitness
