import StackCode.Proofs.Image.Reading
import StackCode.Proofs.Program.Registration

/-!
# What decoding returns

Decoding reads a tree and registers it, so a program is decoded exactly when the image of a tree
comes first whose functions the settings admit, and it is then the program of this tree.

**Results.**
* `Program.decodeStart_eq_ok_iff`: what is decoded from the start of some bytes.
* `Program.exists_flattens_of_decode`: what a decoded program consists of.
* `Program.decode_image`: the image of an admitted tree is decoded as the program of the tree.
-/

namespace StackCode
namespace CodeTree

/-- A tree can be read with the given settings. -/
structure Readable (settings : Settings) (tree : CodeTree) : Prop where
  admitted : ∀ node ∈ nodes tree, node.Admitted settings
  depth : depth tree ≤ settings.maxDepth.toNat

variable {settings : Settings} {tree : CodeTree}

theorem Readable.plain
    (h : Readable settings tree) :
    tree.Plain :=
  fun node member => (h.admitted node member).1.encodable.plain

theorem Readable.of_limits_le
    {wider : Settings}
    (h : Readable settings tree)
    (maxDepth : settings.maxDepth ≤ wider.maxDepth)
    (maxOperands : settings.maxOperands ≤ wider.maxOperands) :
    Readable wider tree := by
  constructor
  · intro node member
    obtain ⟨storable, operands⟩ := h.admitted node member
    exact ⟨storable, UInt64.le_trans operands maxOperands⟩
  · exact Nat.le_trans h.depth (UInt64.le_iff_toNat_le.1 maxDepth)

/-- Whether a tree can be read does not depend on the byte order and on what may follow it. -/
theorem Readable.of_limits_eq
    {settings' : Settings}
    (h : Readable settings tree)
    (maxDepth : settings'.maxDepth = settings.maxDepth)
    (maxOperands : settings'.maxOperands = settings.maxOperands) :
    Readable settings' tree :=
  h.of_limits_le (UInt64.le_of_eq maxDepth.symm) (UInt64.le_of_eq maxOperands.symm)

end CodeTree

namespace Program

variable {settings : Settings} {bytes : List UInt8} {p : Program} {behind : Cursor}

/-- The levels that are read suffice for the trees that the settings allow. -/
theorem codeTree_start_eq_ok_iff
    {tree : CodeTree} :
    Read.codeTree settings (settings.maxDepth.toNat + 1)
        (Cursor.start settings.order bytes) = .ok tree behind ↔
      CodeTree.Readable settings tree ∧
        (Cursor.start settings.order bytes).Covers (CodeTree.image tree) behind := by
  rw [Read.codeTree_eq_ok_iff, Nat.lt_succ_iff]
  exact and_congr_left fun _ => ⟨fun h => ⟨h.1, h.2⟩, fun h => ⟨h.admitted, h.depth⟩⟩

theorem decodeStart_eq_ok_iff :
    decodeStart settings bytes = .ok (p, behind) ↔
      ∃ tree : CodeTree, CodeTree.Readable settings tree ∧
        (Cursor.start settings.order bytes).Covers (CodeTree.image tree) behind ∧
        ofTree tree = .ok p := by
  simp only [decodeStart]
  cases found : Read.codeTree settings (settings.maxDepth.toNat + 1)
      (Cursor.start settings.order bytes) with
  | error e c =>
      refine iff_of_false (fun h => by cases h) ?_
      rintro ⟨tree, readable, covers, _⟩
      cases found.symm.trans (codeTree_start_eq_ok_iff.2 ⟨readable, covers⟩)
  | ok tree c =>
      obtain ⟨readable, covers⟩ := codeTree_start_eq_ok_iff.1 found
      cases made : ofTree tree with
      | error e =>
          obtain ⟨p, _, succeeds, _⟩ := exists_flattens readable.plain
          cases made.symm.trans succeeds
      | ok p' =>
          simp only [made]
          change Except.ok (p', c) = Except.ok (p, behind) ↔ _
          constructor
          · intro same
            cases same
            exact ⟨tree, readable, covers, made⟩
          · rintro ⟨tree', readable', covers', made'⟩
            obtain ⟨rfl, rfl⟩ := EStateM.Result.ok.inj
              (found.symm.trans (codeTree_start_eq_ok_iff.2 ⟨readable', covers'⟩))
            rw [made] at made'
            cases made'
            rfl

/-- The image that was read ends where the cursor stands. -/
theorem offset_eq_of_decodeStart
    (h : decodeStart settings bytes = .ok (p, behind)) :
    behind.offset + behind.remaining = bytes.length := by
  obtain ⟨tree, _, covers, _⟩ := decodeStart_eq_ok_iff.1 h
  have rest : bytes = CodeTree.image tree settings.order ++ behind.rest := covers.rest
  have offset : behind.offset = 0 + (CodeTree.image tree settings.order).length := covers.offset
  rw [rest, List.length_append, offset, Nat.zero_add]
  rfl

/-- Nothing but reading the tree can fail: every tree that is read can be registered. -/
theorem decodeStart_eq_error_iff
    {e : Error} :
    decodeStart settings bytes = .error e ↔
      ∃ left, Read.codeTree settings (settings.maxDepth.toNat + 1)
        (Cursor.start settings.order bytes) = .error e left := by
  simp only [decodeStart]
  cases found : Read.codeTree settings (settings.maxDepth.toNat + 1)
      (Cursor.start settings.order bytes) with
  | error e' left =>
      simp
  | ok tree behind =>
      obtain ⟨p, _, made, _⟩ := exists_flattens (codeTree_start_eq_ok_iff.1 found).1.plain
      simp only [made]
      refine iff_of_false (fun h => by cases h) ?_
      rintro ⟨left, refused⟩
      cases refused

/-- Behind an image that was read, bytes are an error if the settings say so. -/
theorem decode_of_decodeStart
    (start : decodeStart settings bytes = .ok (p, behind)) :
    decode settings bytes =
      if settings.rejectTrailing = true ∧ behind.rest ≠ [] then
        .error (.corrupt behind.offset (.trailingBytes behind.remaining))
      else .ok p := by
  have refuses : (settings.rejectTrailing && !behind.isEmpty) = true ↔
      settings.rejectTrailing = true ∧ behind.rest ≠ [] := by
    simp [Cursor.isEmpty]
  rw [decode, start]
  change (if (settings.rejectTrailing && !behind.isEmpty) = true then
      Except.error (Error.corrupt behind.offset (.trailingBytes behind.remaining))
    else Except.ok p) = _
  simp only [refuses]

theorem decode_of_decodeStart_error
    {e : Error}
    (start : decodeStart settings bytes = .error e) :
    decode settings bytes = .error e := by
  rw [decode, start]
  rfl

theorem decode_eq_ok_iff :
    decode settings bytes = .ok p ↔
      ∃ behind, decodeStart settings bytes = .ok (p, behind) ∧
        (settings.rejectTrailing = true → behind.rest = []) := by
  cases start : decodeStart settings bytes with
  | error e =>
      rw [decode_of_decodeStart_error start]
      simp
  | ok result =>
      obtain ⟨p', behind⟩ := result
      rw [decode_of_decodeStart start]
      split_ifs with refused
      · simp [refused]
      · simpa using fun _ => refused

/-- Decoding fails where reading the image does, or at bytes behind it that must not be there. -/
theorem decode_eq_error_iff
    {e : Error} :
    decode settings bytes = .error e ↔
      decodeStart settings bytes = .error e ∨
        ∃ p behind, decodeStart settings bytes = .ok (p, behind) ∧
          (settings.rejectTrailing = true ∧ behind.rest ≠ []) ∧
          e = .corrupt behind.offset (.trailingBytes behind.remaining) := by
  cases start : decodeStart settings bytes with
  | error e' =>
      rw [decode_of_decodeStart_error start]
      simp
  | ok result =>
      obtain ⟨p, behind⟩ := result
      rw [decode_of_decodeStart start]
      split_ifs with refused
      · simp [refused, eq_comm]
      · simp [refused]

/-- A decoded program consists of the functions of a tree that could be read. -/
theorem exists_flattens_of_decode
    (h : decode settings bytes = .ok p) :
    ∃ root tree, CodeTree.Readable settings tree ∧ p.Flattens root tree := by
  obtain ⟨behind, start, _⟩ := decode_eq_ok_iff.1 h
  obtain ⟨tree, readable, _, made⟩ := decodeStart_eq_ok_iff.1 start
  obtain ⟨root, flattens⟩ := flattens_of_ofTree_eq_ok readable.plain made
  exact ⟨root, tree, readable, flattens⟩

/-- The image of a tree that can be read is decoded as the program of the tree. -/
theorem decode_image
    {tree : CodeTree}
    (readable : CodeTree.Readable settings tree)
    (made : ofTree tree = .ok p) :
    decode settings (CodeTree.image tree settings.order) = .ok p := by
  let behind : Cursor := ⟨[], 0 + (CodeTree.image tree settings.order).length, settings.order⟩
  have covers : (Cursor.start settings.order (CodeTree.image tree settings.order)).Covers
      (CodeTree.image tree) behind :=
    ⟨(List.append_nil _).symm, rfl, rfl⟩
  exact decode_eq_ok_iff.2
    ⟨behind, decodeStart_eq_ok_iff.2 ⟨tree, readable, covers, made⟩, fun _ => rfl⟩

end Program
end StackCode
