import StackCode.Proofs.Bytes.Emission
import StackCode.Proofs.Image.Writing
import StackCode.Proofs.Program.Faults

/-!
# Sending programs

Writing a program stops at the first of its faults in the order of the image. That, and the bytes
sent until then, are the same for all sinks. A sink with a limit can only cut the bytes off, and
then reports that instead of a fault further on.

**Results.**
* `Program.writeFunction_stops`: a function inside open descriptors.
* `Program.writeTo_limited`: writing to a sink with a limit and to one without.
* `Program.encode_reports_first`: which programs have an image, and what is reported for the others.
-/

namespace StackCode

namespace Write

theorem shortText_stops
    (value : String) :
    StopsAtFirst (shortText value) (shortFaults value) :=
  StopsAtFirst.unless ((stops_word 1 _).bind (stops_raw _))

theorem nameList_stops
    (list : NameList) :
    StopsAtFirst (nameList list) list.faults :=
  (stops_word 1 _).bind (StopsAtFirst.each fun name _ => shortText_stops name)

theorem capturedVariable_stops
    (v : Variable) :
    StopsAtFirst (capturedVariable v) [] :=
  (stops_word 1 _).bind (stops_word 1 _)

theorem operand_stops
    (o : Operand) :
    StopsAtFirst (operand o) o.faults := by
  cases o with
  | none =>
      exact stops_pure
  | index value =>
      exact stops_word 4 _
  | captures list =>
      exact StopsAtFirst.unless
        ((stops_word 1 _).bind (StopsAtFirst.each_nil fun v _ => capturedVariable_stops v))
  | names list =>
      exact nameList_stops list
  | record name fields =>
      exact (shortText_stops name).bind (nameList_stops fields)
  | field name =>
      exact shortText_stops name

theorem instruction_stops
    (i : Instruction) :
    StopsAtFirst (instruction i) i.operand.faults :=
  (stops_word 1 _).bind (operand_stops i.operand)

theorem lineRecord_stops
    (record : UInt32 × LineChange) :
    StopsAtFirst (lineRecord record) [] := by
  obtain ⟨start, change⟩ := record
  cases change with
  | line number =>
      exact (stops_word 4 _).bind ((stops_word 1 _).bind (stops_word 2 _))
  | path name =>
      exact (stops_word 4 _).bind ((stops_word 1 _).bind (stops_text name))

variable {nested : FunctionId → Write Unit} {faults : FunctionId → List Error}

theorem constant_stops
    (c : Constant)
    (h : ∀ id, StopsAtFirst (nested id) (faults id)) :
    StopsAtFirst (constant nested c) (c.faults faults) := by
  refine (stops_word 1 _).bind (?_ : StopsAtFirst _ (c.faults faults))
  cases c with
  | nothing =>
      exact stops_pure
  | integer | real =>
      exact stops_word 8 _
  | boolean =>
      exact stops_word 1 _
  | character value =>
      exact stops_raw _
  | function id =>
      exact h id
  | record =>
      exact stops_throw _

/-- The record of a function stops at the first fault of its descriptor, given the faults of the
functions in its pool. -/
theorem record_stops
    (d : Descriptor Constant)
    (h : ∀ id, StopsAtFirst (nested id) (faults id)) :
    StopsAtFirst (record nested d) (d.faults faults) := by
  have globals : StopsAtFirst (table text d.globals) [] :=
    StopsAtFirst.table_nil fun name _ => stops_text name
  have pool : StopsAtFirst (table (constant nested) d.pool)
      (d.pool.flatMap (Constant.faults faults)) :=
    StopsAtFirst.table fun c _ => constant_stops c h
  have lines : StopsAtFirst (table lineRecord d.lines.records) [] :=
    StopsAtFirst.table_nil fun record _ => lineRecord_stops record
  have code : StopsAtFirst (table instruction d.code) (d.code.flatMap fun i => i.operand.faults) :=
    StopsAtFirst.table fun i _ => instruction_stops i
  exact (nameList_stops d.particles).bind (globals.bind ((stops_word 8 _).bind
    ((stops_word 4 _).bind (pool.bind ((stops_text d.name).bind ((stops_text d.origin.path).bind
      ((stops_word 2 _).bind (lines.bind code))))))))

end Write

namespace Program

open Write (StopsAtFirst)

/-- A function inside open descriptors is written up to its first fault. -/
theorem writeFunction_stops
    (p : Program) (opened : List DescriptorId) (id : FunctionId) :
    StopsAtFirst (p.writeFunction opened id) (p.faultsInside opened id) := by
  induction opened, id using inside_induction (p := p) with
  | missing opened id none =>
      rw [writeFunction_of_missing none, faultsInside_of_missing none]
      exact Write.stops_throw _
  | inside opened id f d runs found member =>
      rw [writeFunction_of_opened runs found member, faultsInside_of_opened runs found member]
      exact Write.stops_throw _
  | closed opened id f d runs found outside ih =>
      rw [writeFunction_of_closed runs found outside, faultsInside_of_closed runs found outside]
      exact Write.record_stops d ih

theorem write_stops
    (p : Program) :
    StopsAtFirst p.write p.faults := by
  unfold write faults
  cases p.root with
  | none =>
      exact Write.stops_throw _
  | some root =>
      exact writeFunction_stops p [] root

section Sent

variable {p : Program} {image : Image} {result : Except Error Unit} {s : Sink}

/-- A sink with room for all that is sent gets it with the result. -/
theorem writeTo_of_room
    (sent : p.write.Emits image result)
    (room : s.room (image s.order).length = (image s.order).length) :
    p.writeTo s = (s.add (image s.order), result) := by
  rw [writeTo, sent]
  cases result with
  | ok u =>
      rw [Sink.receive_ok_of_room room]
  | error e =>
      rw [Sink.receive_error_of_room room]

/-- A sink without that room gets the beginning. -/
theorem writeTo_of_full
    (sent : p.write.Emits image result)
    (full : s.room (image s.order).length < (image s.order).length) :
    p.writeTo s =
      (s.add ((image s.order).take (s.room (image s.order).length)), .error .sinkFull) := by
  rw [writeTo, sent, Sink.receive_of_full full]

theorem writeTo_unlimited
    (sent : p.write.Emits image result)
    (order : ByteOrder) :
    p.writeTo (Sink.empty order none) = ((Sink.empty order none).add (image order), result) :=
  writeTo_of_room sent (s := Sink.empty order none) rfl

theorem encode_eq
    (sent : p.write.Emits image result)
    (order : ByteOrder) :
    p.encode order = result.map fun _ => image order := by
  rw [encode, writeTo_unlimited sent]
  cases result with
  | ok u =>
      exact congrArg Except.ok (by simp [Sink.empty, Sink.add])
  | error e =>
      rfl

end Sent

theorem firstOf_eq_error_iff
    {faults : List Error} {e : Error} :
    firstOf faults = .error e ↔ faults.head? = some e := by
  cases faults <;> simp [firstOf]

/-- A sink with a limit holds a beginning of what a sink without one holds, cut at the limit. The
result is the same if nothing was cut off, and otherwise it is that the sink is full, be it in front
of a fault or not. -/
theorem writeTo_limited
    (p : Program) (order : ByteOrder) (limit : Nat) :
    let whole := p.writeTo (Sink.empty order none)
    let cut := p.writeTo (Sink.empty order (some limit))
    cut.1.bytes.toList = whole.1.bytes.toList.take (min limit whole.1.bytes.size) ∧
      cut.2 = if whole.1.bytes.size ≤ limit then whole.2 else .error .sinkFull := by
  obtain ⟨image, _, sent⟩ := p.write_stops
  intro whole cut
  have whole_eq : whole = ((Sink.empty order none).add (image order), _) :=
    writeTo_unlimited sent order
  have size : whole.1.bytes.size = (image order).length := by
    simp [whole_eq, Sink.empty, Sink.add]
  rw [size]
  have room : (Sink.empty order (some limit)).room (image order).length =
      min limit (image order).length :=
    Nat.min_comm _ _
  by_cases fits : (image order).length ≤ limit
  · have cut_eq : cut = ((Sink.empty order (some limit)).add (image order), _) :=
      writeTo_of_room sent (room.trans (Nat.min_eq_right fits))
    simp [whole_eq, cut_eq, fits, Sink.empty, Sink.add]
  · have full : min limit (image order).length < (image order).length := by omega
    have cut_eq : cut = ((Sink.empty order (some limit)).add
        ((image order).take ((Sink.empty order (some limit)).room (image order).length)), _) :=
      writeTo_of_full sent (Nat.lt_of_le_of_lt (Nat.le_of_eq room) full)
    rw [cut_eq, room, if_neg fits]
    simp [whole_eq, Sink.empty, Sink.add]

/-- A program has an image exactly when a root is chosen and all that the root leads to can stand in
an image. Otherwise the first of its faults in the order of the image is reported. Neither that nor
how many bytes are written, also in front of a fault, depends on the byte order. -/
theorem encode_reports_first
    (p : Program) (order : ByteOrder) :
    ((∃ bytes, p.encode order = .ok bytes) ↔ ∃ root, p.root = some root ∧ p.WritableFrom root) ∧
    (∀ e, p.encode order = .error e ↔ p.faults.head? = some e) ∧
    ∀ other,
      (p.encode other).map List.length = (p.encode order).map List.length ∧
      (p.writeTo (Sink.empty other none)).1.bytes.size =
        (p.writeTo (Sink.empty order none)).1.bytes.size := by
  obtain ⟨image, even, sent⟩ := p.write_stops
  refine ⟨?_, fun e => ?_, fun other => ⟨?_, ?_⟩⟩
  · simp only [encode_eq_ok_iff, writableFrom_iff]
    constructor
    · rintro ⟨_, root, tree, ⟨rooted, unfolds⟩, _⟩
      exact ⟨root, rooted, tree, unfolds⟩
    · rintro ⟨root, rooted, tree, unfolds⟩
      exact ⟨_, root, tree, ⟨rooted, unfolds⟩, rfl⟩
  · rw [encode_eq sent, ← firstOf_eq_error_iff]
    cases firstOf p.faults with
    | ok u =>
        simp [Except.map]
    | error e' =>
        simp [Except.map]
  · rw [encode_eq sent, encode_eq sent]
    cases firstOf p.faults with
    | ok u =>
        exact congrArg Except.ok (even other order)
    | error e =>
        rfl
  · rw [writeTo_unlimited sent, writeTo_unlimited sent, Sink.size_add, Sink.size_add,
      even other order]
    rfl

end Program
end StackCode
