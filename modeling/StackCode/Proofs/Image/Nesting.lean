import Mathlib.Data.List.Nodup
import Mathlib.Data.List.Perm.Subperm
import Mathlib.Logic.Function.Iterate
import StackCode.Proofs.Image.Writing

/-!
# How deep the writer goes down

`Program.writeFunction` is given the open descriptors anew with every call. An encoder keeps them in
one list instead, which every record changes on the way in and on the way out. `Program.enter` is
the body of its recursion, with a parameter for the call of itself, and nothing in it tells that the
recursion ends.

What a step does is told for one list of open descriptors: it ends as a step of the writer does, and
hands the list back unless it fails. A record enters the functions of its pool with one descriptor
more on the list, so fewer are left that are not. The induction is on their number. After as many
calls as there are descriptors, and one more that is refused, it does not matter what a call would
do.

**Results.**
* `Program.Nest.length_le`: distinct descriptors of a program are no more than it has.
* `Program.tracks_enter`: a function, given the functions of its pool.
* `Program.iterate_enter_eq`: no function is entered at a greater depth.
* `Program.encodeFunction_nests`: the recursion ends, and what is open while it goes on.
-/

namespace StackCode

/-- A writer that keeps the descriptors whose records are open, the innermost in front. It notes
which are open whenever it writes. -/
structure Encoder where
  sink : Sink
  opened : List DescriptorId
  noted : List (List DescriptorId)

/-- A step of an encoder. -/
abbrev Encode := EStateM Error Encoder

namespace Encode

/-- Takes a step of the writer. -/
def emit {α : Type} (m : Write α) : Encode α := fun w =>
  match m w.sink with
  | .ok a sink => .ok a { w with sink, noted := w.opened :: w.noted }
  | .error e sink => .error e { w with sink, noted := w.opened :: w.noted }

def push (id : DescriptorId) : Encode Unit := modify fun w => { w with opened := id :: w.opened }

def pop : Encode Unit := modify fun w => { w with opened := w.opened.tail }

/-- Takes a step with one descriptor more open. -/
def within (id : DescriptorId) (inner : Encode Unit) : Encode Unit := do
  push id
  inner
  pop

/-- Takes a step for each item in turn. -/
def each {α : Type} (item : α → Encode Unit) : List α → Encode Unit
  | [] => return ()
  | first :: others => do
    item first
    each item others

/-- Writes the number of items as a word of eight bytes, then the items. -/
def table {α : Type} (item : α → Encode Unit) (items : List α) : Encode Unit := do
  emit (Write.word64 (UInt64.ofNat items.length))
  each item items

/-- Writes a value of a constant pool; only functions are entered. -/
def constant (nested : FunctionId → Encode Unit) : Constant → Encode Unit
  | .function id => do
    emit (Write.byte Kind.function.tag)
    nested id
  | c => emit (Write.constant (fun _ => return ()) c)

/-- Writes the record of a function, with a given way to enter the functions of its pool. -/
def record (nested : FunctionId → Encode Unit) (d : Descriptor Constant) : Encode Unit := do
  emit (Write.nameList d.particles)
  emit (Write.table Write.text d.globals)
  emit (Write.word64 d.operandCount)
  emit (Write.word32 d.localCount)
  table (constant nested) d.pool
  emit (Write.text d.name)
  emit (Write.text d.origin.path)
  emit (Write.word16 d.origin.line)
  emit (Write.table Write.lineRecord d.lines.records)
  emit (Write.table Write.instruction d.code)

end Encode

namespace Program

/-- Enters a function, with a given way to enter further ones. -/
def enter (p : Program) (nested : FunctionId → Encode Unit) (id : FunctionId) : Encode Unit :=
  match p.function? id with
  | none => throw (.unknownFunction id)
  | some f =>
    match p.descriptor? f.descriptor with
    | none => throw (.unknownFunction id)
    | some d => do
      if f.descriptor ∈ (← get).opened then throw (.recursiveFunction id)
      Encode.within f.descriptor (Encode.record nested d)

/-- Enters a function. Calls nest one deeper at most than there are descriptors. -/
def encodeFunction (p : Program) : FunctionId → Encode Unit :=
  p.enter^[p.descriptorCount + 1] fun id => throw (.recursiveFunction id)

/-- Writes the image of a program to a sink, with nothing open at first. -/
def encodeTo (p : Program) (sink : Sink) : Encoder × Except Error Unit :=
  match p.root with
  | none => (⟨sink, [], []⟩, .error .noRoot)
  | some id =>
    match p.encodeFunction id ⟨sink, [], []⟩ with
    | .ok _ w => (w, .ok ())
    | .error e w => (w, .error e)

/-- Descriptors of a program, none of them inside itself. -/
structure Nest (p : Program) (opened : List DescriptorId) : Prop where
  nodup : opened.Nodup
  inside : ∀ id ∈ opened, id.index < p.descriptorCount

end Program

namespace Encoder

/-- The descriptors that are open, and those that were at any time, are a nest. -/
structure Nests (p : Program) (w : Encoder) : Prop where
  opened : p.Nest w.opened
  noted : ∀ opened ∈ w.noted, p.Nest opened

/-- An encoder ends as a writer does, with the same bytes. If it succeeds, the same descriptors are
open as before. Whether it fails or not, descriptors that are a nest stay one. -/
inductive Follows {α : Type} (p : Program) (w : Encoder) :
    EStateM.Result Error Encoder α → EStateM.Result Error Sink α → Prop
  | ok {a : α} {behind : Encoder}
      (restored : behind.opened = w.opened)
      (nests : w.Nests p → behind.Nests p) :
      Follows p w (.ok a behind) (.ok a behind.sink)
  | error {e : Error} {left : Encoder}
      (nests : w.Nests p → left.Nests p) :
      Follows p w (.error e left) (.error e left.sink)

theorem Follows.opened_eq
    {α : Type} {p : Program} {w behind : Encoder} {a : α}
    {written : EStateM.Result Error Sink α}
    (h : w.Follows p (.ok a behind) written) :
    behind.opened = w.opened := by
  cases h with
  | ok restored nests => exact restored

/-- What goes on from a later encoder with the same descriptors open. -/
theorem Follows.of_between
    {α : Type} {p : Program} {w between : Encoder}
    {outcome : EStateM.Result Error Encoder α} {written : EStateM.Result Error Sink α}
    (same : between.opened = w.opened)
    (keeps : w.Nests p → between.Nests p)
    (h : between.Follows p outcome written) :
    w.Follows p outcome written := by
  cases h with
  | ok restored nests => exact .ok (restored.trans same) fun before => nests (keeps before)
  | error nests => exact .error fun before => nests (keeps before)

end Encoder

namespace Encode

variable {p : Program} {opened : List DescriptorId}

/-- Where the descriptors are open, two steps of an encoder are one and follow a step of the
writer. -/
structure Tracks {α : Type} (p : Program) (opened : List DescriptorId) (t t' : Encode α)
    (m : Write α) : Prop where
  same : ∀ w : Encoder, w.opened = opened → t w = t' w
  follows : ∀ w : Encoder, w.opened = opened → w.Follows p (t w) (m w.sink)

namespace Tracks

variable {α β : Type}

theorem pure (a : α) :
    Tracks p opened (pure a) (pure a) (pure a) :=
  ⟨fun _ _ => rfl, fun _ _ => .ok rfl id⟩

theorem throw (e : Error) :
    Tracks p opened (throw e : Encode α) (throw e) (throw e) :=
  ⟨fun _ _ => rfl, fun _ _ => .error id⟩

theorem congr
    {t t' u u' : Encode α} {m : Write α}
    (h : Tracks p opened u u' m)
    (same : ∀ w : Encoder, w.opened = opened → t w = u w)
    (same' : ∀ w : Encoder, w.opened = opened → t' w = u' w) :
    Tracks p opened t t' m := by
  constructor
  · intro w at_opened
    rw [same w at_opened, same' w at_opened]
    exact h.same w at_opened
  · intro w at_opened
    rw [same w at_opened]
    exact h.follows w at_opened

theorem emit (m : Write α) :
    Tracks p opened (emit m) (emit m) m := by
  refine ⟨fun _ _ => rfl, fun w _ => ?_⟩
  have nests (sink : Sink) (h : w.Nests p) :
      Encoder.Nests p ⟨sink, w.opened, w.opened :: w.noted⟩ :=
    ⟨h.opened, List.forall_mem_cons.2 ⟨h.opened, h.noted⟩⟩
  unfold Encode.emit
  cases m w.sink with
  | ok a sink =>
      exact .ok rfl (nests sink)
  | error e sink =>
      exact .error (nests sink)

theorem bind
    {t t' : Encode α} {m : Write α} {u u' : α → Encode β} {n : α → Write β}
    (h : Tracks p opened t t' m)
    (h' : ∀ a, Tracks p opened (u a) (u' a) (n a)) :
    Tracks p opened (t >>= u) (t' >>= u') (m >>= n) := by
  constructor
  · intro w at_opened
    refine Step.bind_congr (h.same w at_opened) fun a between done => ?_
    have first := h.follows w at_opened
    rw [h.same w at_opened, done] at first
    exact (h' a).same between (first.opened_eq.trans at_opened)
  · intro w at_opened
    have first := h.follows w at_opened
    generalize entered : t w = outcome at first
    generalize written : m w.sink = outcome' at first
    cases first with
    | @ok a between restored nests =>
        rw [Step.bind_of_eq_ok entered, Step.bind_of_eq_ok written]
        exact .of_between restored nests ((h' a).follows between (restored.trans at_opened))
    | error nests =>
        rw [Step.bind_of_eq_error entered, Step.bind_of_eq_error written]
        exact .error nests

theorem each
    {item item' : α → Encode Unit} {written : α → Write Unit}
    (h : ∀ a, Tracks p opened (item a) (item' a) (written a))
    (items : List α) :
    Tracks p opened (each item items) (each item' items) (Write.each written items) := by
  induction items with
  | nil =>
      exact pure ()
  | cons first others ih =>
      exact (h first).bind fun _ => ih

theorem table
    {item item' : α → Encode Unit} {written : α → Write Unit}
    (h : ∀ a, Tracks p opened (item a) (item' a) (written a))
    (items : List α) :
    Tracks p opened (table item items) (table item' items) (Write.table written items) :=
  (emit _).bind fun _ => each h items

theorem constant
    {nested nested' : FunctionId → Encode Unit} {written : FunctionId → Write Unit}
    (h : ∀ id, Tracks p opened (nested id) (nested' id) (written id))
    (c : Constant) :
    Tracks p opened (constant nested c) (constant nested' c) (Write.constant written c) := by
  cases c with
  | function id =>
      exact (emit _).bind fun _ => h id
  | nothing | integer | real | boolean | character | record =>
      exact emit _

theorem record
    {nested nested' : FunctionId → Encode Unit} {written : FunctionId → Write Unit}
    (h : ∀ id, Tracks p opened (nested id) (nested' id) (written id))
    (d : Descriptor Constant) :
    Tracks p opened (record nested d) (record nested' d) (Write.record written d) := by
  refine (emit _).bind fun _ => (emit _).bind fun _ => (emit _).bind fun _ => (emit _).bind ?_
  refine fun _ => (table (constant h) d.pool).bind fun _ => ?_
  exact (emit _).bind fun _ => (emit _).bind fun _ => (emit _).bind fun _ =>
    (emit _).bind fun _ => emit _

/-- One descriptor more is open inside, and is closed behind. -/
theorem within
    {id : DescriptorId} {t t' : Encode Unit} {m : Write Unit}
    (closed : id ∉ opened)
    (inside : id.index < p.descriptorCount)
    (h : Tracks p (id :: opened) t t' m) :
    Tracks p opened (within id t) (within id t') m := by
  constructor
  · intro w at_opened
    refine Step.bind_congr rfl fun _ between pushed => ?_
    cases pushed
    exact Step.bind_congr (h.same _ (congrArg _ at_opened)) fun _ _ _ => rfl
  · intro w at_opened
    have inner := h.follows { w with opened := id :: w.opened } (congrArg _ at_opened)
    have into (before : w.Nests p) : Encoder.Nests p { w with opened := id :: w.opened } := by
      refine ⟨⟨List.nodup_cons.2 ⟨at_opened ▸ closed, before.opened.nodup⟩, ?_⟩, before.noted⟩
      exact List.forall_mem_cons.2 ⟨inside, before.opened.inside⟩
    change w.Follows p ((t >>= fun _ => pop) { w with opened := id :: w.opened }) _
    dsimp only at inner
    generalize entered : t { w with opened := id :: w.opened } = outcome at inner
    generalize m w.sink = outcome' at inner
    cases inner with
    | @ok _ between restored nests =>
        rw [Step.bind_of_eq_ok entered]
        have restored' : between.opened.tail = w.opened := congrArg List.tail restored
        refine .ok restored' fun before => ⟨?_, (nests (into before)).noted⟩
        change p.Nest between.opened.tail
        exact restored' ▸ before.opened
    | error nests =>
        rw [Step.bind_of_eq_error entered]
        exact .error fun before => nests (into before)

end Tracks
end Encode

namespace Program

variable {p : Program} {opened : List DescriptorId} {id : FunctionId}

open Encode (Tracks)

theorem enter_of_missing
    (missing : p.descriptorOf? id = none)
    (nested : FunctionId → Encode Unit) :
    p.enter nested id = throw (.unknownFunction id) := by
  rw [enter]
  cases runs : p.function? id with
  | none =>
      rfl
  | some f =>
      rw [descriptorOf?, runs, Option.bind_some] at missing
      simp only [missing]

section Running

variable {f : Function} {d : Descriptor Constant} {nested : FunctionId → Encode Unit}
variable (runs : p.function? id = some f) (found : p.descriptor? f.descriptor = some d)
include runs found

theorem enter_of_opened
    {w : Encoder}
    (inside : f.descriptor ∈ w.opened) :
    p.enter nested id w = .error (.recursiveFunction id) w := by
  simp only [enter, runs, found]
  rw [Step.get_bind, if_pos inside]
  rfl

theorem enter_of_closed
    {w : Encoder}
    (closed : f.descriptor ∉ w.opened) :
    p.enter nested id w = Encode.within f.descriptor (Encode.record nested d) w := by
  simp only [enter, runs, found]
  rw [Step.get_bind, if_neg closed]

end Running

/-- If one descriptor more is open in the calls, then they may be taken for those of the writer. -/
theorem tracks_enter
    {nested nested' : FunctionId → Encode Unit}
    (h : ∀ inner : DescriptorId, inner ∉ opened → inner.index < p.descriptorCount → ∀ next,
      Tracks p (inner :: opened) (nested next) (nested' next)
        (p.writeFunction (inner :: opened) next))
    (id : FunctionId) :
    Tracks p opened (p.enter nested id) (p.enter nested' id) (p.writeFunction opened id) := by
  cases runs_d : p.descriptorOf? id with
  | none =>
      rw [enter_of_missing runs_d, enter_of_missing runs_d, writeFunction_of_missing runs_d]
      exact .throw _
  | some d =>
      obtain ⟨f, runs, found⟩ := descriptorOf?_eq_some_iff.1 runs_d
      by_cases member : f.descriptor ∈ opened
      · rw [writeFunction_of_opened runs found member]
        have refused (nested : FunctionId → Encode Unit) (w : Encoder)
            (at_opened : w.opened = opened) :
            p.enter nested id w = .error (.recursiveFunction id) w :=
          enter_of_opened runs found (at_opened ▸ member)
        exact (Tracks.throw _).congr (refused nested) (refused nested')
      · rw [writeFunction_of_closed runs found member]
        have entered (nested : FunctionId → Encode Unit) (w : Encoder)
            (at_opened : w.opened = opened) :
            p.enter nested id w = Encode.within f.descriptor (Encode.record nested d) w :=
          enter_of_closed runs found (at_opened ▸ member)
        have inside : f.descriptor.index < p.descriptorCount :=
          (Array.getElem?_eq_some_iff.1 found).1
        have record := Tracks.record (h f.descriptor member inside) d
        exact (record.within member inside).congr (entered nested) (entered nested')

theorem tracks_iterate_enter
    (deeper deeper' : FunctionId → Encode Unit)
    {calls : Nat}
    (h : p.closedCount opened < calls)
    (id : FunctionId) :
    Tracks p opened (p.enter^[calls] deeper id) (p.enter^[calls] deeper' id)
      (p.writeFunction opened id) := by
  induction calls generalizing opened id with
  | zero =>
      cases h
  | succ calls ih =>
      rw [Function.iterate_succ_apply', Function.iterate_succ_apply']
      refine tracks_enter (fun inner closed inside => ?_) id
      have fewer := closedCount_cons_lt inside closed
      exact ih (by omega)

theorem closedCount_le
    (p : Program) (opened : List DescriptorId) :
    p.closedCount opened ≤ p.descriptorCount :=
  Nat.le_trans List.countP_le_length (Nat.le_of_eq List.length_range)

/-- What calls at a depth greater than the number of descriptors would do makes no difference. -/
theorem iterate_enter_eq
    (p : Program) (deeper : FunctionId → Encode Unit) :
    p.enter^[p.descriptorCount + 1] deeper = p.encodeFunction := by
  funext id w
  have h := Nat.lt_succ_of_le (p.closedCount_le w.opened)
  exact (tracks_iterate_enter deeper _ h id).same w rfl

theorem enter_encodeFunction
    (p : Program) :
    p.enter p.encodeFunction = p.encodeFunction := by
  conv_lhs => rw [encodeFunction, ← Function.iterate_succ_apply' p.enter]
  exact p.iterate_enter_eq _

theorem Nest.length_le
    (h : p.Nest opened) :
    opened.length ≤ p.descriptorCount := by
  have nodup : (opened.map DescriptorId.index).Nodup :=
    h.nodup.map fun a b same => (DescriptorId.mk.injEq a.index b.index).mpr same
  have inside : opened.map DescriptorId.index ⊆ List.range p.descriptorCount := by
    intro index member
    obtain ⟨id, member_id, rfl⟩ := List.mem_map.1 member
    exact List.mem_range.2 (h.inside id member_id)
  have le := (nodup.subperm inside).length_le
  rwa [List.length_map, List.length_range] at le

theorem follows_encodeFunction
    (p : Program) (id : FunctionId) (w : Encoder) :
    w.Follows p (p.encodeFunction id w) (p.writeFunction w.opened id w.sink) := by
  have h := Nat.lt_succ_of_le (p.closedCount_le w.opened)
  let deeper (id : FunctionId) : Encode Unit := throw (.recursiveFunction id)
  exact (tracks_iterate_enter deeper deeper h id).follows w rfl

theorem encodeTo_follows
    (p : Program) (sink : Sink) :
    ((p.encodeTo sink).1.sink, (p.encodeTo sink).2) = p.writeTo sink ∧
      (p.encodeTo sink).1.Nests p := by
  have start : Encoder.Nests p ⟨sink, [], []⟩ := ⟨⟨List.nodup_nil, nofun⟩, nofun⟩
  rw [encodeTo, writeTo, write]
  cases p.root with
  | none =>
      exact ⟨rfl, start⟩
  | some id =>
      have follows := p.follows_encodeFunction id ⟨sink, [], []⟩
      dsimp only at follows ⊢
      generalize p.encodeFunction id ⟨sink, [], []⟩ = outcome at follows ⊢
      generalize p.writeFunction [] id sink = outcome' at follows ⊢
      cases follows with
      | ok restored nests => exact ⟨rfl, nests start⟩
      | error nests => exact ⟨rfl, nests start⟩

/-- The recursion of the writer ends for every program: a call deeper than the number of descriptors
is never made, so calling itself is what the encoder does. A function ends as in the writer, and
leaves the open descriptors as they were if it succeeds. Whenever bytes of an image are written, the
open descriptors are distinct, and are no more than the program has. -/
theorem encodeFunction_nests
    (p : Program) :
    (∀ deeper, p.enter^[p.descriptorCount + 1] deeper = p.encodeFunction) ∧
    p.enter p.encodeFunction = p.encodeFunction ∧
    (∀ id (w : Encoder), w.Follows p (p.encodeFunction id w) (p.writeFunction w.opened id w.sink)) ∧
    ∀ sink,
      ((p.encodeTo sink).1.sink, (p.encodeTo sink).2) = p.writeTo sink ∧
      ∀ opened ∈ (p.encodeTo sink).1.noted,
        opened.Nodup ∧ (∀ id ∈ opened, id.index < p.descriptorCount) ∧
        opened.length ≤ p.descriptorCount := by
  refine ⟨p.iterate_enter_eq, p.enter_encodeFunction, p.follows_encodeFunction, fun sink => ?_⟩
  obtain ⟨same, nests⟩ := p.encodeTo_follows sink
  refine ⟨same, fun opened member => ?_⟩
  have nest := nests.noted opened member
  exact ⟨nest.nodup, nest.inside, nest.length_le⟩

/-- Two functions that refer to each other. -/
def reciprocal : Program :=
  let referring (index : Nat) : Descriptor Constant :=
    { (.named "" : Descriptor Constant) with pool := [.function ⟨index⟩] }
  { ((empty.register (referring 1)).2.register (referring 0)).2 with root := some ⟨0⟩ }

example :
    (reciprocal.encodeTo (Sink.empty .little none)).2 = .error (.recursiveFunction ⟨0⟩) ∧
    (reciprocal.encodeTo (Sink.empty .little none)).1.noted.eraseDups = [[⟨1⟩, ⟨0⟩], [⟨0⟩]] := by
  decide +kernel

end Program

end StackCode
