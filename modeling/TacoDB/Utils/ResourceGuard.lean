import TacoDB.Base.Core
import TacoDB.Control.Run
import TacoDB.Data.Custody

/-!
# Resource guards

The two variants of `ResourceGuard` that can be moved: the one in which a sentinel value stands
for no resource, and the one with a flag. They have the same member functions but for how an
object says whether it is valid, so these are written once, over a `GuardClass`. `MutexGuard`
is a guard of the first variant whose constructor locks the mutex.

The objects are numbered in the order of their construction, and a member function is given
the numbers of its objects: the two objects of a move assignment may be the same one. The
calls of `ReleaseFunc` are recorded in their order.
-/

namespace Taco

/-- The members of a guard, and what its variant says about them. -/
structure GuardClass (T : Type) where
  Obj : Type
  /-- The members after `ResourceGuard()`. -/
  ofNothing : Obj
  /-- The members after `ResourceGuard(T val)`. -/
  ofVal : T → Obj
  /-- The members after the value was taken out. -/
  invalidated : Obj
  isValid : Obj → Bool
  get : Obj → T
  isValid_ofNothing : isValid ofNothing = false
  isValid_invalidated : isValid invalidated = false
  get_ofVal : ∀ val, get (ofVal val) = val

namespace ResourceGuard

/-- The variant where `InvalidVal` stands for no resource; the only member is `m_val`. -/
def sentinel {T : Type} [DecidableEq T] (invalidVal : T) : GuardClass T where
  Obj := T
  ofNothing := invalidVal
  ofVal := fun val => val
  invalidated := invalidVal
  isValid := fun val => decide (val ≠ invalidVal)
  get := fun val => val
  isValid_ofNothing := decide_eq_false (fun h => h rfl)
  isValid_invalidated := decide_eq_false (fun h => h rfl)
  get_ofVal := fun _ => rfl

structure Flagged (T : Type) where
  val : T
  isvalid : Bool
  deriving DecidableEq, Repr

/-- The variant with a flag. `ResourceGuard()` leaves `m_val` uninitialized; a value that was
taken out is replaced by `T()`. -/
def flag {T : Type} (uninit valueInit : T) : GuardClass T where
  Obj := Flagged T
  ofNothing := ⟨uninit, false⟩
  ofVal := fun val => ⟨val, true⟩
  invalidated := ⟨valueInit, false⟩
  isValid := Flagged.isvalid
  get := Flagged.val
  isValid_ofNothing := rfl
  isValid_invalidated := rfl
  get_ofVal := fun _ => rfl

end ResourceGuard

/-- The guards constructed so far, none in the place of one that was destroyed, and the values
that `ReleaseFunc` was called with. -/
structure GuardMem {T : Type} (C : GuardClass T) where
  objects : List (Option C.Obj)
  released : List T

namespace GuardMem

variable {T : Type} {C : GuardClass T}

def object? (s : GuardMem C) (i : Nat) : Option C.Obj := s.objects[i]?.join

def read (i : Nat) : Eff Failure (GuardMem C) C.Obj := fun s =>
  match s.object? i with
  | some m => (.ok m, s)
  | none => (.error (.undefined "use of a guard outside its lifetime"), s)

def write (i : Nat) (m : C.Obj) : Eff Failure (GuardMem C) Unit :=
  Eff.modifyState fun s => { s with objects := s.objects.set i (some m) }

def push (m : C.Obj) : Eff Failure (GuardMem C) Unit :=
  Eff.modifyState fun s => { s with objects := s.objects ++ [some m] }

def releaseFunc (val : T) : Eff Failure (GuardMem C) Unit :=
  Eff.modifyState fun s => { s with released := s.released ++ [val] }

def releaseIfValid (m : C.Obj) : Eff Failure (GuardMem C) Unit :=
  if C.isValid m then releaseFunc (C.get m) else pure ()

/-- `ResourceGuard()`. -/
def constructDefault : Eff Failure (GuardMem C) Unit := push C.ofNothing

/-- `ResourceGuard(T val)`. -/
def construct (val : T) : Eff Failure (GuardMem C) Unit := push (C.ofVal val)

/-- `ResourceGuard(ResourceGuard &&other)`. -/
def moveConstruct (other : Nat) : Eff Failure (GuardMem C) Unit := do
  let m ← read other
  push m
  write other C.invalidated

/-- `operator=(ResourceGuard &&other)`. -/
def moveAssign (this other : Nat) : Eff Failure (GuardMem C) Unit := do
  let m ← read this
  releaseIfValid m
  let m' ← read other
  write this m'
  write other C.invalidated

def reset (this : Nat) : Eff Failure (GuardMem C) Unit := do
  let m ← read this
  if C.isValid m then do
    releaseFunc (C.get m)
    write this C.invalidated
  else pure ()

def release (this : Nat) : Eff Failure (GuardMem C) T := do
  let m ← read this
  write this C.invalidated
  pure (C.get m)

/-- `~ResourceGuard()`. -/
def destroy (this : Nat) : Eff Failure (GuardMem C) Unit := do
  let m ← read this
  releaseIfValid m
  Eff.modifyState fun s => { s with objects := s.objects.set this none }

end GuardMem

inductive GuardCall (T : Type) where
  | constructDefault
  | construct (val : T)
  | moveConstruct (other : Nat)
  | moveAssign (this other : Nat)
  | reset (this : Nat)
  | release (this : Nat)
  | destroy (this : Nat)
  deriving DecidableEq, Repr

namespace GuardCall

def uses {T : Type} : GuardCall T → List Nat
  | constructDefault | construct _ => []
  | moveConstruct other => [other]
  | moveAssign this other => [this, other]
  | reset this | release this | destroy this => [this]

end GuardCall

def GuardClass.held {T : Type} (C : GuardClass T) (m : C.Obj) : Option T :=
  if C.isValid m then some (C.get m) else none

def GuardClass.newly {T : Type} (C : GuardClass T) : GuardCall T → Option T
  | .construct val => C.held (C.ofVal val)
  | _ => none

/-- The guards, the resources that were given to them and those that `Release()` handed out. -/
structure GuardHistory {T : Type} (C : GuardClass T) where
  mem : GuardMem C
  given : List T
  handedOut : List T

namespace GuardHistory

variable {T : Type} {C : GuardClass T}

def init (C : GuardClass T) : GuardHistory C := ⟨⟨[], []⟩, [], []⟩

def heldBy (s : GuardHistory C) (i : Nat) : Option T := (s.mem.object? i).bind C.held

def memAfter (mem : GuardMem C) : GuardCall T → GuardMem C
  | .constructDefault => (GuardMem.constructDefault mem).2
  | .construct val => (GuardMem.construct val mem).2
  | .moveConstruct other => (GuardMem.moveConstruct other mem).2
  | .moveAssign this other => (GuardMem.moveAssign this other mem).2
  | .reset this => (GuardMem.reset this mem).2
  | .release this => (GuardMem.release this mem).2
  | .destroy this => (GuardMem.destroy this mem).2

def handsOut (s : GuardHistory C) : GuardCall T → Option T
  | .release this =>
      if (s.heldBy this).isSome then (GuardMem.release this s.mem).1.toOption else none
  | _ => none

def step (s : GuardHistory C) (call : GuardCall T) : GuardHistory C where
  mem := memAfter s.mem call
  given := s.given ++ (C.newly call).toList
  handedOut := s.handedOut ++ (s.handsOut call).toList

def Alive (s : GuardHistory C) (call : GuardCall T) : Prop :=
  ∀ i ∈ call.uses, (s.mem.object? i).isSome

def Fresh (s : GuardHistory C) (call : GuardCall T) : Prop :=
  ∀ r ∈ C.newly call, r ∉ s.given

instance (s : GuardHistory C) (call : GuardCall T) : Decidable (Alive s call) :=
  inferInstanceAs (Decidable (∀ i ∈ call.uses, (s.mem.object? i).isSome))

instance [DecidableEq T] (s : GuardHistory C) (call : GuardCall T) : Decidable (Fresh s call) :=
  inferInstanceAs (Decidable (∀ r ∈ C.newly call, r ∉ s.given))

def HeldOnce (s : GuardHistory C) : Prop :=
  ∀ i j r, s.heldBy i = some r → s.heldBy j = some r → i = j

def AllDestroyed (s : GuardHistory C) : Prop := ∀ i, s.mem.object? i = none

def ReleasedOnce [DecidableEq T] (s : GuardHistory C) : Prop :=
  ∀ r ∈ s.given, (r ∉ s.handedOut → s.mem.released.count r = 1) ∧
    (r ∈ s.handedOut → r ∉ s.mem.released)

end GuardHistory

open GuardHistory

/-- In every run on guards that exist, in which each resource is given to a guard once, each
resource is held by at most one valid guard in every state, and released once unless it was
handed out when all guards are destroyed. -/
def GuardClass.ReleasesOnce {T : Type} [DecidableEq T] (C : GuardClass T) : Prop :=
  ∀ calls, Run.EachStep step (fun s call => Alive s call ∧ Fresh s call) (init C) calls →
    Run.Throughout step HeldOnce (init C) calls ∧
      (AllDestroyed (Run.run step (init C) calls) → ReleasedOnce (Run.run step (init C) calls))

namespace GuardMem

variable {T : Type} {C : GuardClass T} {mem : GuardMem C} {m m' : C.Obj} {i j : Nat}

theorem read_eq (h : mem.object? i = some m) : read i mem = (.ok m, mem) := by
  rw [read, h]

theorem releaseIfValid_eq : releaseIfValid m mem =
    (.ok (), { mem with released := mem.released ++ (C.held m).toList }) := by
  unfold releaseIfValid GuardClass.held
  cases C.isValid m with
  | true => rfl
  | false => simp

theorem moveConstruct_eq (h : mem.object? i = some m) : moveConstruct i mem =
    (.ok (), ⟨(mem.objects ++ [some m]).set i (some C.invalidated), mem.released⟩) := by
  rw [moveConstruct, Eff.bind_of_ok (read_eq h)]
  rfl

/-- A move assignment releases what its object holds before it reads the other one, so a guard
that is assigned to itself releases its resource and is invalid afterwards. -/
theorem moveAssign_eq (h : mem.object? i = some m) (h' : mem.object? j = some m') :
    moveAssign i j mem =
      (.ok (), ⟨(mem.objects.set i (some m')).set j (some C.invalidated),
        mem.released ++ (C.held m).toList⟩) := by
  have hread : read j { mem with released := mem.released ++ (C.held m).toList } =
      (.ok m', { mem with released := mem.released ++ (C.held m).toList }) := read_eq h'
  rw [moveAssign, Eff.bind_of_ok (read_eq h), Eff.bind_of_ok releaseIfValid_eq,
    Eff.bind_of_ok hread]
  rfl

theorem release_eq (h : mem.object? i = some m) : release i mem =
    (.ok (C.get m), ⟨mem.objects.set i (some C.invalidated), mem.released⟩) := by
  rw [release, Eff.bind_of_ok (read_eq h)]
  rfl

theorem destroy_eq (h : mem.object? i = some m) : destroy i mem =
    (.ok (), ⟨mem.objects.set i none, mem.released ++ (C.held m).toList⟩) := by
  rw [destroy, Eff.bind_of_ok (read_eq h), Eff.bind_of_ok releaseIfValid_eq]
  rfl

end GuardMem

open Bag

def GuardMem.holdings {T : Type} {C : GuardClass T} (objects : List (Option C.Obj)) :
    List (Option T) :=
  objects.map fun o => o.bind C.held

structure GuardHistory.Matches {T : Type} {C : GuardClass T} (s : GuardHistory C)
    (c : Custody T) : Prop where
  holders : c.holders = GuardMem.holdings s.mem.objects
  given : c.given = s.given
  discharged : c.discharged = s.mem.released
  handedOut : c.handedOut = s.handedOut

section Simulation

variable {T : Type} {C : GuardClass T} {s : GuardHistory C} {c : Custody T}

@[simp] theorem GuardClass.held_ofNothing : C.held C.ofNothing = none := by
  rw [GuardClass.held, C.isValid_ofNothing]
  rfl

@[simp] theorem GuardClass.held_invalidated : C.held C.invalidated = none := by
  rw [GuardClass.held, C.isValid_invalidated]
  rfl

theorem has_holdings (i : Nat) : has (GuardMem.holdings s.mem.objects) i = s.heldBy i := by
  rw [has, GuardMem.holdings, List.getElem?_map, heldBy, GuardMem.object?]
  cases s.mem.objects[i]? with
  | none => rfl
  | some o => rfl

theorem coe_append_toList (l : List T) (x : Option T) :
    ((l ++ x.toList : List T) : Multiset T) = (l : Multiset T) + one x :=
  (Multiset.coe_add l x.toList).symm

theorem exists_of_alive {call : GuardCall T} (h : Alive s call) {i : Nat} (hi : i ∈ call.uses) :
    ∃ m, s.mem.object? i = some m ∧ has (GuardMem.holdings s.mem.objects) i = C.held m := by
  obtain ⟨m, hm⟩ := Option.isSome_iff_exists.mp (h i hi)
  refine ⟨m, hm, ?_⟩
  rw [has_holdings, heldBy, hm, Option.bind_some]

theorem lt_of_object? {mem : GuardMem C} {i : Nat} {m : C.Obj} (h : mem.object? i = some m) :
    i < mem.objects.length := by
  by_contra hle
  rw [GuardMem.object?, List.getElem?_eq_none (Nat.le_of_not_lt hle)] at h
  cases h

theorem set_object? {mem : GuardMem C} {i : Nat} {m : C.Obj} (h : mem.object? i = some m) :
    mem.objects.set i (some m) = mem.objects := by
  have hlt := lt_of_object? h
  rw [GuardMem.object?, List.getElem?_eq_getElem hlt, Option.join_some] at h
  rw [← h, List.set_getElem_self hlt]

theorem GuardHistory.Matches.push (h : s.Matches c) (m : C.Obj) :
    Matches ⟨⟨s.mem.objects ++ [some m], s.mem.released⟩, s.given ++ (C.held m).toList,
      s.handedOut⟩ (c.give (C.held m)) where
  holders := by
    rw [Custody.give_holders, h.holders, GuardMem.holdings, GuardMem.holdings, List.map_append]
    rfl
  given := by rw [Custody.give_given, h.given, coe_append_toList]
  discharged := h.discharged
  handedOut := h.handedOut

theorem GuardHistory.Matches.discharge (h : s.Matches c) {i : Nat} {x : Option T}
    (hx : has (GuardMem.holdings s.mem.objects) i = x) {objects : List (Option C.Obj)}
    (hobj : GuardMem.holdings objects = (GuardMem.holdings s.mem.objects).set i none) :
    Matches ⟨⟨objects, s.mem.released ++ x.toList⟩, s.given, s.handedOut⟩ (c.discharge i) where
  holders := by rw [Custody.discharge_holders, h.holders, hobj]
  given := h.given
  discharged := by rw [Custody.discharge_discharged, h.discharged, h.holders, hx, coe_append_toList]
  handedOut := h.handedOut

theorem GuardHistory.Matches.handOut (h : s.Matches c) {i : Nat} {x : Option T}
    (hx : has (GuardMem.holdings s.mem.objects) i = x) {objects : List (Option C.Obj)}
    (hobj : GuardMem.holdings objects = (GuardMem.holdings s.mem.objects).set i none) :
    Matches ⟨⟨objects, s.mem.released⟩, s.given, s.handedOut ++ x.toList⟩ (c.handOut i) where
  holders := by rw [Custody.handOut_holders, h.holders, hobj]
  given := h.given
  discharged := h.discharged
  handedOut := by rw [Custody.handOut_handedOut, h.handedOut, h.holders, hx, coe_append_toList]

theorem GuardHistory.Matches.pass (h : s.Matches c) {i j : Nat} (hj : j < c.holders.length)
    (hnone : has c.holders j = none) {objects : List (Option C.Obj)}
    (hobj : GuardMem.holdings objects = ((GuardMem.holdings s.mem.objects).set j
      (has (GuardMem.holdings s.mem.objects) i)).set i none) :
    Matches ⟨⟨objects, s.mem.released⟩, s.given, s.handedOut⟩ (c.pass i j hj hnone) where
  holders := by rw [Custody.pass_holders, h.holders, hobj]
  given := h.given
  discharged := h.discharged
  handedOut := h.handedOut

theorem holdings_set (objects : List (Option C.Obj)) (i : Nat) (o : Option C.Obj) :
    GuardMem.holdings (objects.set i o) = (GuardMem.holdings objects).set i (o.bind C.held) :=
  List.map_set

theorem holdings_append (objects : List (Option C.Obj)) (o : Option C.Obj) :
    GuardMem.holdings (objects ++ [o]) = GuardMem.holdings objects ++ [o.bind C.held] :=
  List.map_append

theorem holdings_length (objects : List (Option C.Obj)) :
    (GuardMem.holdings objects).length = objects.length :=
  List.length_map _

theorem step_eq {call : GuardCall T} {mem : GuardMem C} (hmem : memAfter s.mem call = mem)
    {x y : Option T} (hnew : C.newly call = x) (hout : s.handsOut call = y) :
    step s call = ⟨mem, s.given ++ x.toList, s.handedOut ++ y.toList⟩ := by
  rw [step, hmem, hnew, hout]

theorem step_eq_mem {call : GuardCall T} {mem : GuardMem C} (hmem : memAfter s.mem call = mem)
    (hnew : C.newly call = none) (hout : s.handsOut call = none) :
    step s call = ⟨mem, s.given, s.handedOut⟩ := by
  rw [step_eq hmem hnew hout, Option.toList_none, List.append_nil, List.append_nil]

theorem step_push (h : s.Matches c) {call : GuardCall T} {m : C.Obj}
    (hmem : memAfter s.mem call = ⟨s.mem.objects ++ [some m], s.mem.released⟩)
    (hnew : C.newly call = C.held m) (hout : s.handsOut call = none) :
    (step s call).Matches (c.give (C.held m)) := by
  rw [step_eq hmem hnew hout, Option.toList_none, List.append_nil]
  exact h.push m

theorem step_moveConstruct (h : s.Matches c) {other : Nat}
    (ha : Alive s (.moveConstruct other)) :
    ∃ c', (step s (.moveConstruct other)).Matches c' ∧ bag c'.holders = bag c.holders := by
  obtain ⟨m, hm, hheld⟩ := exists_of_alive ha (List.mem_singleton_self other)
  have hlt := lt_of_object? hm
  have hnew := h.push C.ofNothing
  rw [GuardClass.held_ofNothing, Option.toList_none, List.append_nil] at hnew
  have hlength : c.holders.length = s.mem.objects.length := by rw [h.holders, holdings_length]
  have hnone : has (c.give none).holders s.mem.objects.length = none := by
    rw [Custody.give_holders, ← hlength, has_append_length]
  have hin : s.mem.objects.length < (c.give none).holders.length := by
    rw [Custody.give_holders, List.length_append, hlength]
    exact Nat.lt_succ_self _
  have hobj : GuardMem.holdings ((s.mem.objects ++ [some m]).set other (some C.invalidated)) =
      ((GuardMem.holdings (s.mem.objects ++ [some C.ofNothing])).set s.mem.objects.length
        (has (GuardMem.holdings (s.mem.objects ++ [some C.ofNothing])) other)).set other none := by
    rw [holdings_set, holdings_append, holdings_append, Option.bind_some, Option.bind_some,
      Option.bind_some, GuardClass.held_ofNothing, GuardClass.held_invalidated,
      has_append_left (by rwa [holdings_length]), hheld, ← holdings_length s.mem.objects,
      append_set_length]
  refine ⟨(c.give none).pass other s.mem.objects.length hin hnone, ?_, ?_⟩
  · have hmem : memAfter s.mem (.moveConstruct other) = _ :=
      congrArg Prod.snd (GuardMem.moveConstruct_eq hm)
    rw [step_eq_mem hmem rfl rfl]
    exact hnew.pass hin hnone hobj
  · rw [Custody.pass_holders, Custody.bag_pass hin hnone, Custody.bag_give, one_none, add_zero]

/-- Move assignment: a guard gives up what it holds, which is released, and takes over from the
other one, which is itself for a self-assignment and holds nothing then. -/
theorem step_moveAssign (h : s.Matches c) {this other : Nat}
    (ha : Alive s (.moveAssign this other)) :
    ∃ c', (step s (.moveAssign this other)).Matches c' ∧ bag c'.holders ≤ bag c.holders := by
  obtain ⟨m, hm, hheld⟩ := exists_of_alive ha (List.mem_cons_self)
  obtain ⟨m', hm', hheld'⟩ := exists_of_alive ha (List.mem_cons_of_mem _ (List.mem_singleton_self _))
  have hlt : this < (GuardMem.holdings s.mem.objects).length := by
    rw [holdings_length]
    exact lt_of_object? hm
  have hrel := h.discharge hheld (holdings_set s.mem.objects this none)
  have hnone : has (c.discharge this).holders this = none := by
    rw [Custody.discharge_holders, h.holders, has_set_self hlt]
  have hin : this < (c.discharge this).holders.length := by
    rwa [Custody.discharge_holders, List.length_set, h.holders]
  have hobj : GuardMem.holdings
      ((s.mem.objects.set this (some m')).set other (some C.invalidated)) =
      ((GuardMem.holdings (s.mem.objects.set this none)).set this
        (has (GuardMem.holdings (s.mem.objects.set this none)) other)).set other none := by
    rw [holdings_set, holdings_set, holdings_set, Option.bind_some, Option.bind_some,
      Option.bind_none, GuardClass.held_invalidated, List.set_set]
    by_cases hself : this = other
    · subst hself
      rw [List.set_set, List.set_set]
    · rw [has_set_ne hself, hheld']
  refine ⟨(c.discharge this).pass other this hin hnone, ?_, ?_⟩
  · have hmem : memAfter s.mem (.moveAssign this other) = _ :=
      congrArg Prod.snd (GuardMem.moveAssign_eq hm hm')
    rw [step_eq_mem hmem rfl rfl]
    exact hrel.pass hin hnone hobj
  · rw [Custody.pass_holders, Custody.bag_pass hin hnone, Custody.discharge_holders]
    exact Custody.bag_set_none_le _ _

theorem step_reset (h : s.Matches c) {this : Nat} (ha : Alive s (.reset this)) :
    (step s (.reset this)).Matches (c.discharge this) := by
  obtain ⟨m, hm, hheld⟩ := exists_of_alive ha (List.mem_singleton_self this)
  cases hvalid : C.isValid m with
  | true =>
      have hres : GuardMem.reset this s.mem =
          (.ok (), ⟨s.mem.objects.set this (some C.invalidated),
            s.mem.released ++ [C.get m]⟩) := by
        rw [GuardMem.reset, Eff.bind_of_ok (GuardMem.read_eq hm), hvalid]
        rfl
      have hmem : memAfter s.mem (.reset this) = _ := congrArg Prod.snd hres
      have hsome : C.held m = some (C.get m) := if_pos hvalid
      have hobj := holdings_set s.mem.objects this (some C.invalidated)
      rw [Option.bind_some, GuardClass.held_invalidated] at hobj
      rw [step_eq_mem hmem rfl rfl]
      exact h.discharge (hheld.trans hsome) hobj
  | false =>
      have hres : GuardMem.reset this s.mem = (.ok (), s.mem) := by
        rw [GuardMem.reset, Eff.bind_of_ok (GuardMem.read_eq hm), hvalid]
        rfl
      have hmem : memAfter s.mem (.reset this) = _ := congrArg Prod.snd hres
      have hnone : C.held m = none := if_neg (by rw [hvalid]; exact Bool.false_ne_true)
      have hobj := holdings_set s.mem.objects this (some m)
      rw [set_object? hm, Option.bind_some, hnone] at hobj
      have hafter := h.discharge (hheld.trans hnone) hobj
      rw [Option.toList_none, List.append_nil] at hafter
      rw [step_eq_mem hmem rfl rfl]
      exact hafter

theorem step_release (h : s.Matches c) {this : Nat} (ha : Alive s (.release this)) :
    (step s (.release this)).Matches (c.handOut this) := by
  obtain ⟨m, hm, hheld⟩ := exists_of_alive ha (List.mem_singleton_self this)
  have hmem : memAfter s.mem (.release this) = _ := congrArg Prod.snd (GuardMem.release_eq hm)
  have hout : s.handsOut (.release this) = C.held m := by
    have hby : s.heldBy this = C.held m := by rw [← has_holdings, hheld]
    change (if (s.heldBy this).isSome then (GuardMem.release this s.mem).1.toOption else none) = _
    rw [hby, GuardMem.release_eq hm, GuardClass.held]
    cases C.isValid m with
    | true => rfl
    | false => rfl
  have hobj := holdings_set s.mem.objects this (some C.invalidated)
  rw [Option.bind_some, GuardClass.held_invalidated] at hobj
  have hnew : C.newly (.release this) = none := rfl
  rw [step_eq hmem hnew hout, Option.toList_none, List.append_nil]
  exact h.handOut hheld hobj

theorem step_destroy (h : s.Matches c) {this : Nat} (ha : Alive s (.destroy this)) :
    (step s (.destroy this)).Matches (c.discharge this) := by
  obtain ⟨m, hm, hheld⟩ := exists_of_alive ha (List.mem_singleton_self this)
  have hmem : memAfter s.mem (.destroy this) = _ := congrArg Prod.snd (GuardMem.destroy_eq hm)
  rw [step_eq_mem hmem rfl rfl]
  exact h.discharge hheld (holdings_set _ _ _)

/-- What a call leaves with the guards is what they had before and what it gives to one. -/
theorem step_matches (h : s.Matches c) {call : GuardCall T} (ha : Alive s call) :
    ∃ c', (step s call).Matches c' ∧ bag c'.holders ≤ bag c.holders + one (C.newly call) := by
  cases call with
  | constructDefault =>
      have hnew : C.newly .constructDefault = C.held C.ofNothing :=
        GuardClass.held_ofNothing.symm
      refine ⟨_, step_push h rfl hnew rfl, ?_⟩
      rw [Custody.bag_give, GuardClass.held_ofNothing]
      exact le_refl _
  | construct val =>
      refine ⟨_, step_push h rfl rfl rfl, ?_⟩
      rw [Custody.bag_give]
      exact le_refl _
  | moveConstruct other =>
      obtain ⟨c', hafter, hbag⟩ := step_moveConstruct h ha
      exact ⟨c', hafter, hbag.le.trans (Multiset.le_add_right _ _)⟩
  | moveAssign this other =>
      obtain ⟨c', hafter, hbag⟩ := step_moveAssign h ha
      exact ⟨c', hafter, hbag.trans (Multiset.le_add_right _ _)⟩
  | reset this =>
      exact ⟨_, step_reset h ha, (Custody.bag_set_none_le _ _).trans (Multiset.le_add_right _ _)⟩
  | release this =>
      exact ⟨_, step_release h ha, (Custody.bag_set_none_le _ _).trans (Multiset.le_add_right _ _)⟩
  | destroy this =>
      exact ⟨_, step_destroy h ha, (Custody.bag_set_none_le _ _).trans (Multiset.le_add_right _ _)⟩

theorem init_matches : (init C).Matches Custody.empty := ⟨rfl, rfl, rfl, rfl⟩

theorem heldOnce_of_nodup (h : s.Matches c) (hnodup : (bag c.holders).Nodup) : HeldOnce s := by
  intro i j r hi hj
  rw [← has_holdings, ← h.holders] at hi hj
  exact eq_of_nodup hnodup hi hj

theorem has_of_allDestroyed (h : s.Matches c) (hall : AllDestroyed s) (i : Nat) :
    has c.holders i = none := by
  rw [h.holders, has_holdings, heldBy, hall i, Option.bind_none]

end Simulation

section Releases

variable {T : Type} {C : GuardClass T} {s : GuardHistory C}

def GuardHistory.GivenOnce (s : GuardHistory C) : Prop := s.given.Nodup ∧ ∃ c, s.Matches c

theorem step_givenOnce {call : GuardCall T} (h : GivenOnce s)
    (hcall : Alive s call ∧ Fresh s call) : GivenOnce (step s call) := by
  obtain ⟨hnodup, c, hc⟩ := h
  obtain ⟨hal, hfresh⟩ := hcall
  obtain ⟨c', hc', -⟩ := step_matches hc hal
  refine ⟨?_, c', hc'⟩
  rw [step, List.nodup_append]
  refine ⟨hnodup, ?_, ?_⟩
  · exact Option.toList_nodup _
  · intro a ha b hb hab
    subst hab
    exact hfresh a (Option.mem_toList.mp hb) ha

theorem GuardHistory.GivenOnce.heldOnce (h : GivenOnce s) : HeldOnce s := by
  obtain ⟨hnodup, c, hc⟩ := h
  refine heldOnce_of_nodup hc (Multiset.nodup_of_le Custody.bag_le_given ?_)
  rw [hc.given]
  exact hnodup

theorem GuardHistory.GivenOnce.releasedOnce [DecidableEq T] (h : GivenOnce s)
    (hall : AllDestroyed s) : ReleasedOnce s := by
  obtain ⟨hnodup, c, hc⟩ := h
  have hgiven : c.given.Nodup := by
    rw [hc.given]
    exact hnodup
  intro r hr
  have hr' : r ∈ c.given := by
    rw [hc.given]
    exact hr
  have honce := Custody.discharged_once hgiven (has_of_allDestroyed hc hall) hr'
  rw [hc.discharged, hc.handedOut, Multiset.coe_count, Multiset.mem_coe, Multiset.mem_coe] at honce
  exact honce

/-- Guards of either variant release what they are given exactly once. -/
theorem releasesOnce [DecidableEq T] (C : GuardClass T) : C.ReleasesOnce := by
  intro calls hcalls
  have hinit : GivenOnce (init C) := ⟨List.nodup_nil, _, init_matches⟩
  have hrun := Run.throughout_of_eachStep (fun s call => step_givenOnce) hinit hcalls
  exact ⟨fun pre hpre => (hrun pre hpre).heldOnce,
    fun hall => (hrun calls (List.prefix_refl calls)).releasedOnce hall⟩

end Releases

namespace MutexGuard

variable {M : Type} [DecidableEq M]

/-- The base class of `MutexGuard`; the null pointer is `none`. -/
abbrev guardClass (M : Type) [DecidableEq M] : GuardClass (Option M) := ResourceGuard.sentinel none

/-- The guards, and the mutexes on which `lock()` was called. `MutexReleaseFunc` unlocks, so
the calls of `unlock()` are those of the release function. -/
structure Mem (M : Type) [DecidableEq M] where
  guards : GuardMem (guardClass M)
  locks : List M

def lock (m : M) : Eff Failure (Mem M) Unit :=
  Eff.modifyState fun s => { s with locks := s.locks ++ [m] }

def onGuards {α : Type} (x : Eff Failure (GuardMem (guardClass M)) α) : Eff Failure (Mem M) α :=
  fun s => ((x s.guards).1, { s with guards := (x s.guards).2 })

def construct : Option M → Eff Failure (Mem M) Unit
  | some m => do
      lock m
      onGuards (GuardMem.construct (some m))
  | none => onGuards (GuardMem.construct none)

structure History (M : Type) [DecidableEq M] where
  mem : Mem M
  handedOut : List (Option M)

namespace History

def init (M : Type) [DecidableEq M] : History M := ⟨⟨⟨[], []⟩, []⟩, []⟩

/-- The history of the base class: a guard is given a mutex when this is locked for it. -/
def toGuardHistory (s : History M) : GuardHistory (guardClass M) :=
  ⟨s.mem.guards, s.mem.locks.map some, s.handedOut⟩

def memAfter (mem : Mem M) : GuardCall (Option M) → Mem M
  | .construct m => (MutexGuard.construct m mem).2
  | call => { mem with guards := GuardHistory.memAfter mem.guards call }

def step (s : History M) (call : GuardCall (Option M)) : History M where
  mem := memAfter s.mem call
  handedOut := s.handedOut ++ (s.toGuardHistory.handsOut call).toList

def locked (s : History M) (m : M) : Nat := s.mem.locks.count m

def unlocked (s : History M) (m : M) : Nat := s.mem.guards.released.count (some m)

def handed (s : History M) (m : M) : Nat := s.handedOut.count (some m)

/-- The mutex that a guard is constructed for is not locked, so `lock()` returns: each time
it was locked before, a guard has unlocked it or has handed it out to be unlocked. -/
def LockReturns (s : History M) : GuardCall (Option M) → Prop
  | .construct (some m) => s.locked m ≤ s.unlocked m + s.handed m
  | _ => True

end History

/-- In every run on guards that exist in which each call of `lock()` returns: a mutex is held
by at most one guard in every state, a null pointer is not unlocked, and no mutex is unlocked
and handed out more often than it was locked; and as often when all guards are destroyed. -/
def UnlocksOnce (M : Type) [DecidableEq M] : Prop :=
  ∀ calls, Run.EachStep History.step
      (fun s call => Alive s.toGuardHistory call ∧ s.LockReturns call) (History.init M) calls →
    Run.Throughout History.step (fun s => HeldOnce s.toGuardHistory ∧
        none ∉ s.mem.guards.released ∧ ∀ m, s.unlocked m + s.handed m ≤ s.locked m)
      (History.init M) calls ∧
      ∀ s, s = Run.run History.step (History.init M) calls → AllDestroyed s.toGuardHistory →
        ∀ m, s.unlocked m + s.handed m = s.locked m

/-- A `MutexGuard` is a guard that is given the mutexes it locks. -/
theorem toGuardHistory_step (s : History M) (call : GuardCall (Option M)) :
    (s.step call).toGuardHistory = GuardHistory.step s.toGuardHistory call := by
  have hsame : ∀ mem : GuardMem (guardClass M),
      (⟨mem, s.mem.locks.map some, s.handedOut ++ (s.toGuardHistory.handsOut call).toList⟩ :
        GuardHistory (guardClass M)) =
      ⟨mem, s.mem.locks.map some ++ (none : Option (Option M)).toList,
        s.handedOut ++ (s.toGuardHistory.handsOut call).toList⟩ := by
    intro mem
    rw [Option.toList_none, List.append_nil]
  cases call with
  | construct m =>
      cases m with
      | none => exact hsame _
      | some m =>
          have hgiven : (s.mem.locks ++ [m]).map some = s.mem.locks.map some ++ [some m] :=
            List.map_append
          change (⟨_, (s.mem.locks ++ [m]).map some, _⟩ : GuardHistory (guardClass M)) = _
          rw [hgiven]
          rfl
  | constructDefault => exact hsame _
  | moveConstruct other => exact hsame _
  | moveAssign this other => exact hsame _
  | reset this => exact hsame _
  | release this => exact hsame _
  | destroy this => exact hsame _

variable {s : History M} {c : Custody (Option M)}

theorem coe_count_some (l : List (Option M)) (m : M) :
    (l : Multiset (Option M)).count (some m) = l.count (some m) := by
  induction l with
  | nil => rfl
  | cons x l ih =>
      rw [← Multiset.cons_coe, Multiset.count_cons, ih, List.count_cons]
      by_cases hx : some m = x
      · rw [if_pos hx, if_pos (beq_iff_eq.mpr hx.symm)]
      · rw [if_neg hx, if_neg fun h => hx (beq_iff_eq.mp h).symm]

/-- A mutex is locked once for each of the times it was unlocked, handed out and held. -/
theorem locked_eq (h : s.toGuardHistory.Matches c) (m : M) :
    s.locked m = s.unlocked m + s.handed m + (bag c.holders).count (some m) := by
  have hcount := congrArg (Multiset.count (some m)) c.balanced
  rw [Multiset.count_add, Multiset.count_add, h.given, h.discharged, h.handedOut,
    coe_count_some, coe_count_some, coe_count_some] at hcount
  have hgiven : (s.mem.locks.map some).count (some m) = s.locked m :=
    List.count_map_of_injective _ _ (Option.some_injective M) m
  rw [← hgiven]
  exact hcount

def Balanced (s : History M) : Prop :=
  ∃ c, s.toGuardHistory.Matches c ∧ (bag c.holders).Nodup

theorem step_balanced {call : GuardCall (Option M)} (h : Balanced s)
    (hcall : Alive s.toGuardHistory call ∧ s.LockReturns call) : Balanced (s.step call) := by
  obtain ⟨c, hc, hnodup⟩ := h
  obtain ⟨hal, hlock⟩ := hcall
  obtain ⟨c', hc', hbag⟩ := step_matches hc hal
  rw [← toGuardHistory_step] at hc'
  refine ⟨c', hc', Custody.nodup_of_le_add hbag hnodup ?_⟩
  intro a ha
  cases call with
  | construct val =>
      cases val with
      | none => cases ha
      | some m =>
          have hm : a = some m := by
            cases ha
            rfl
          have hle : s.locked m ≤ s.unlocked m + s.handed m := hlock
          rw [locked_eq hc m] at hle
          rw [hm]
          exact Multiset.count_eq_zero.mp (by omega)
  | constructDefault => cases ha
  | moveConstruct other => cases ha
  | moveAssign this other => cases ha
  | reset this => cases ha
  | release this => cases ha
  | destroy this => cases ha

theorem none_notMem_released (h : s.toGuardHistory.Matches c) :
    none ∉ s.mem.guards.released := by
  intro hmem
  have hgiven : none ∈ c.given := by
    rw [c.balanced, h.discharged]
    exact Multiset.mem_add.mpr (Or.inl (Multiset.mem_add.mpr (Or.inl hmem)))
  rw [h.given] at hgiven
  obtain ⟨m, -, hm⟩ := List.mem_map.mp (Multiset.mem_coe.mp hgiven)
  cases hm

/-- Guards of mutexes unlock exactly once what they lock. -/
theorem unlocksOnce (M : Type) [DecidableEq M] : UnlocksOnce M := by
  intro calls hcalls
  have hinit : Balanced (History.init M) := ⟨Custody.empty, init_matches, Multiset.nodup_zero⟩
  have hrun := Run.throughout_of_eachStep (fun s call => step_balanced) hinit hcalls
  refine ⟨fun pre hpre => ?_, ?_⟩
  · obtain ⟨c, hc, hnodup⟩ := hrun pre hpre
    refine ⟨heldOnce_of_nodup hc hnodup, none_notMem_released hc, fun m => ?_⟩
    rw [locked_eq hc m]
    exact Nat.le_add_right _ _
  · rintro s rfl hall m
    obtain ⟨c, hc, -⟩ := hrun calls (List.prefix_refl calls)
    rw [locked_eq hc m, bag_eq_zero (has_of_allDestroyed hc hall), Multiset.count_zero, add_zero]

end MutexGuard

/-- Guards of both variants, and the guards of mutexes, release what they hold exactly once. -/
theorem resourceGuards_releaseOnce :
    (∀ (T : Type) [DecidableEq T] (invalidVal : T),
      (ResourceGuard.sentinel invalidVal).ReleasesOnce) ∧
    (∀ (T : Type) [DecidableEq T] (uninit valueInit : T),
      (ResourceGuard.flag uninit valueInit).ReleasesOnce) ∧
    ∀ (M : Type) [DecidableEq M], MutexGuard.UnlocksOnce M :=
  ⟨fun _ _ _ => releasesOnce _, fun _ _ _ _ => releasesOnce _, fun M _ => MutexGuard.unlocksOnce M⟩

/-- A run in which a guard takes over from another one, is assigned to itself and hands its
next resource out. -/
theorem resourceGuards_releaseOnce_run :
    ReleasedOnce (Run.run step (init (ResourceGuard.sentinel 0))
      [.construct 7, .construct 8, .moveAssign 0 1, .moveAssign 0 0, .construct 9,
        .moveAssign 0 2, .release 0, .destroy 2, .destroy 1, .destroy 0]) := by
  refine (resourceGuards_releaseOnce.1 Nat 0 _ ?_).2 ?_
  · repeat refine Run.EachStep.of_cons (by decide) ?_
    exact Run.EachStep.nil _
  · intro i
    match i with
    | 0 | 1 | 2 => rfl
    | i + 3 => rfl

end Taco
