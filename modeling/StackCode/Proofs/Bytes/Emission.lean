import StackCode.Proofs.Bytes.Writing

/-!
# What writing sends

A step that writes never looks at what the sink holds or how much it still takes. It sends bytes
that depend on the byte order alone, and ends with a result that does not even depend on that; the
sink only decides how much of it arrives. So one image and one result describe a step completely,
also a step that fails halfway: the image then holds what was sent until then.

Steps that stop at the first of several faults are put together by putting the lists of their faults
one behind the other.

**Results.**
* `Write.Emits.bind`: a sequence sends one image behind the other.
* `Write.StopsAtFirst.bind`, `Write.StopsAtFirst.each`: the faults of sequences and lists.
-/

namespace StackCode

namespace Image

/-- The image takes as many bytes in one order as in the other. -/
def Even (x : Image) : Prop := ∀ order other, (x order).length = (x other).length

variable {x y : Image}

theorem even_raw
    (bytes : List UInt8) :
    Even (raw bytes) :=
  fun _ _ => rfl

theorem even_word
    (width n : Nat) :
    Even (word width n) := by
  intro order other
  rw [length_word, length_word]

theorem Even.append
    (hx : Even x)
    (hy : Even y) :
    Even (x ++ y) := by
  intro order other
  rw [append_apply, append_apply, List.length_append, List.length_append, hx order other,
    hy order other]

end Image

namespace Sink

variable {α : Type} {s : Sink} {n : Nat}

/-- What comes of sending bytes to a sink and ending with a result. The sink keeps the bytes that it
has room for, and refuses the step if that is not all of them. -/
def receive (s : Sink) (bytes : List UInt8) (result : Except Error α) :
    EStateM.Result Error Sink α :=
  if s.room bytes.length < bytes.length then
    .error .sinkFull (s.add (bytes.take (s.room bytes.length)))
  else
    match result with
    | .ok a => .ok a (s.add bytes)
    | .error e => .error e (s.add bytes)

theorem room_le
    (s : Sink) (n : Nat) :
    s.room n ≤ n := by
  unfold room
  split <;> omega

/-- A sink that cannot take some bytes takes no more of a longer sequence. -/
theorem room_add_of_lt
    (full : s.room n < n)
    (further : Nat) :
    s.room (n + further) = s.room n := by
  unfold room at *
  split at full <;> omega

/-- What a sink takes of a sequence is the first part and what it then takes of the second. -/
theorem room_add_of_eq
    {bytes : List UInt8}
    (room : s.room bytes.length = bytes.length)
    (further : Nat) :
    s.room (bytes.length + further) = bytes.length + (s.add bytes).room further := by
  have kept : (s.add bytes).limit = s.limit := rfl
  unfold Sink.room at room ⊢
  rw [kept, size_add]
  cases h : s.limit with
  | none =>
      rfl
  | some limit =>
      simp only [h] at room ⊢
      omega

theorem receive_of_full
    {bytes : List UInt8} {result : Except Error α}
    (full : s.room bytes.length < bytes.length) :
    s.receive bytes result = .error .sinkFull (s.add (bytes.take (s.room bytes.length))) :=
  if_pos full

theorem receive_ok_of_room
    {bytes : List UInt8} {a : α}
    (room : s.room bytes.length = bytes.length) :
    s.receive bytes (.ok a) = .ok a (s.add bytes) :=
  if_neg (Nat.not_lt.2 (Nat.le_of_eq room.symm))

theorem receive_error_of_room
    {bytes : List UInt8} {e : Error}
    (room : s.room bytes.length = bytes.length) :
    s.receive bytes (.error e : Except Error α) = .error e (s.add bytes) :=
  if_neg (Nat.not_lt.2 (Nat.le_of_eq room.symm))

theorem room_zero
    (s : Sink) :
    s.room ([] : List UInt8).length = ([] : List UInt8).length :=
  Nat.le_antisymm (s.room_le 0) (Nat.zero_le _)

/-- Bytes that do not fit make the sink refuse, whatever would follow. -/
theorem receive_append_of_full
    {bytes others : List UInt8} {result : Except Error α}
    (full : s.room bytes.length < bytes.length) :
    s.receive (bytes ++ others) result =
      .error .sinkFull (s.add (bytes.take (s.room bytes.length))) := by
  have same : s.room (bytes ++ others).length = s.room bytes.length := by
    rw [List.length_append, room_add_of_lt full]
  have full' : s.room (bytes ++ others).length < (bytes ++ others).length := by
    rw [same, List.length_append]
    omega
  rw [receive_of_full full', same, List.take_append_of_le_length (Nat.le_of_lt full)]

/-- Bytes that fit are received before those behind them. -/
theorem receive_append_of_room
    {bytes others : List UInt8} {result : Except Error α}
    (room : s.room bytes.length = bytes.length) :
    s.receive (bytes ++ others) result = (s.add bytes).receive others result := by
  unfold receive
  rw [List.length_append, room_add_of_eq room, List.take_length_add_append, add_append, add_append]
  simp only [Nat.add_lt_add_iff_left]

end Sink

namespace Write

open Step

variable {α β : Type} {m : Write α} {x y : Image}

/-- The step sends the bytes of an image to every sink, and ends with a result. -/
def Emits (m : Write α) (image : Image) (result : Except Error α) : Prop :=
  ∀ s, m s = s.receive (image s.order) result

theorem emits_raw
    (bytes : List UInt8) :
    Emits (raw bytes) (.raw bytes) (.ok ()) := by
  intro s
  rw [raw, get_bind, set_bind, Sink.receive, Image.raw_apply]
  split
  · rfl
  · next fits =>
    have room : s.room bytes.length = bytes.length :=
      Nat.le_antisymm (s.room_le _) (Nat.not_lt.1 fits)
    rw [room, List.take_length]
    rfl

theorem emits_word
    (width n : Nat) :
    Emits (word width n) (.word width n) (.ok ()) :=
  fun s => emits_raw (s.order.encode width n) s

theorem emits_pure
    (a : α) :
    Emits (pure a) (.raw []) (.ok a) := by
  intro s
  rw [Image.raw_apply, Sink.receive_ok_of_room s.room_zero, Sink.add_nil]
  rfl

theorem emits_throw
    (e : Error) :
    Emits (throw e : Write α) (.raw []) (.error e) := by
  intro s
  rw [Image.raw_apply, Sink.receive_error_of_room s.room_zero, Sink.add_nil]
  rfl

/-- A sequence sends one image behind the other. -/
theorem Emits.bind
    {next : α → Write β} {a : α} {result : Except Error β}
    (h : m.Emits x (.ok a))
    (h' : (next a).Emits y result) :
    (m >>= next).Emits (x ++ y) result := by
  intro s
  rw [Image.append_apply]
  rcases Nat.lt_or_eq_of_le (s.room_le (x s.order).length) with full | room
  · rw [Sink.receive_append_of_full full]
    exact bind_of_eq_error ((h s).trans (Sink.receive_of_full full))
  · rw [Sink.receive_append_of_room room,
      bind_of_eq_ok ((h s).trans (Sink.receive_ok_of_room room))]
    exact h' _

/-- A sequence sends nothing behind a step that fails. -/
theorem Emits.bind_error
    {next : α → Write β} {e : Error}
    (h : m.Emits x (.error e)) :
    (m >>= next).Emits x (.error e) := by
  intro s
  rcases Nat.lt_or_eq_of_le (s.room_le (x s.order).length) with full | room
  · rw [Sink.receive_of_full full]
    exact bind_of_eq_error ((h s).trans (Sink.receive_of_full full))
  · rw [Sink.receive_error_of_room room]
    exact bind_of_eq_error ((h s).trans (Sink.receive_error_of_room room))

end Write

/-- The result of a step that stops at the first of some faults. -/
def firstOf : List Error → Except Error Unit
  | [] => .ok ()
  | e :: _ => .error e

namespace Write

variable {α : Type} {first next : Write Unit} {faults others : List Error}

/-- The step stops at the first of some faults, if there are any. How many bytes it sends until then
does not depend on the byte order. -/
def StopsAtFirst (m : Write Unit) (faults : List Error) : Prop :=
  ∃ image : Image, image.Even ∧ m.Emits image (firstOf faults)

theorem stops_raw
    (bytes : List UInt8) :
    StopsAtFirst (raw bytes) [] :=
  ⟨_, Image.even_raw bytes, emits_raw bytes⟩

theorem stops_word
    (width n : Nat) :
    StopsAtFirst (word width n) [] :=
  ⟨_, Image.even_word width n, emits_word width n⟩

theorem stops_pure :
    StopsAtFirst (pure ()) [] :=
  ⟨_, Image.even_raw [], emits_pure ()⟩

theorem stops_throw
    (e : Error) :
    StopsAtFirst (throw e) [e] :=
  ⟨_, Image.even_raw [], emits_throw e⟩

/-- The faults of a sequence are those of the first step, then those of the second. -/
theorem StopsAtFirst.bind
    (h : first.StopsAtFirst faults)
    (h' : next.StopsAtFirst others) :
    StopsAtFirst (first >>= fun _ => next) (faults ++ others) := by
  obtain ⟨x, even, sends⟩ := h
  cases faults with
  | nil =>
      obtain ⟨y, even', sends'⟩ := h'
      exact ⟨x ++ y, even.append even', sends.bind sends'⟩
  | cons e rest =>
      exact ⟨x, even, sends.bind_error⟩

/-- A step that is refused under a condition, and goes on without faults otherwise. -/
theorem StopsAtFirst.unless
    {broken : Prop} [Decidable broken] {e : Error}
    (h : next.StopsAtFirst []) :
    StopsAtFirst (if broken then (throw e : Write Unit) >>= fun _ => next else next)
      (if broken then [e] else []) := by
  split
  · exact (stops_throw e).bind h
  · exact h

theorem StopsAtFirst.each
    {item : α → Write Unit} {faults : α → List Error} {items : List α}
    (h : ∀ a ∈ items, (item a).StopsAtFirst (faults a)) :
    StopsAtFirst (Write.each item items) (items.flatMap faults) := by
  induction items with
  | nil =>
      exact stops_pure
  | cons a rest ih =>
      rw [List.flatMap_cons]
      exact (h a List.mem_cons_self).bind (ih fun b member => h b (List.mem_cons_of_mem _ member))

theorem StopsAtFirst.table
    {item : α → Write Unit} {faults : α → List Error} {items : List α}
    (h : ∀ a ∈ items, (item a).StopsAtFirst (faults a)) :
    StopsAtFirst (Write.table item items) (items.flatMap faults) :=
  (stops_word 8 _).bind (StopsAtFirst.each h)

/-- Items without faults are a list without faults. -/
theorem StopsAtFirst.each_nil
    {item : α → Write Unit} {items : List α}
    (h : ∀ a ∈ items, (item a).StopsAtFirst []) :
    StopsAtFirst (Write.each item items) [] := by
  have none : items.flatMap (fun _ => ([] : List Error)) = [] :=
    List.flatMap_eq_nil_iff.2 fun _ _ => rfl
  exact none ▸ StopsAtFirst.each h

theorem StopsAtFirst.table_nil
    {item : α → Write Unit} {items : List α}
    (h : ∀ a ∈ items, (item a).StopsAtFirst []) :
    StopsAtFirst (Write.table item items) [] :=
  (stops_word 8 _).bind (StopsAtFirst.each_nil h)

/-- A text behind its length as a word always fits. -/
theorem stops_text
    (value : String) :
    StopsAtFirst (text value) [] :=
  (stops_word 8 _).bind (stops_raw _)

end Write
end StackCode
