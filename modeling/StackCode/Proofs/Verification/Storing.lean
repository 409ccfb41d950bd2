import StackCode.Proofs.Image.RoundTrip
import StackCode.Proofs.Image.Limits
import StackCode.Proofs.Verification.Resolution

/-!
# Verification of stored programs

A program that was built and the program that is read from its image number their functions in
different ways, but they unfold into the same tree. Verification sees nothing of the numbers: of a
reference it asks only whether it leads somewhere, which holds of all references in a function that
unfolds. So two functions that unfold into one tree pass or fail together. Functions that the root
does not lead to are not stored, and what is wrong with them is lost.

**Results.**
* `CodeTree.eq_of_covers`: an image is the image of one tree.
* `Program.Unfolds.verify_eq_ok`: functions that unfold into one tree.
* `Program.verify_of_decode_of_encode`: verification before storing and after.
-/

namespace StackCode

namespace CodeTree

/-- Trees are told apart by their images, whatever follows the images. -/
theorem eq_of_covers
    {tree tree' : CodeTree} {c behind behind' : Cursor}
    (storable : ∀ node ∈ nodes tree, node.Storable)
    (storable' : ∀ node ∈ nodes tree', node.Storable)
    (covers : c.Covers (image tree) behind)
    (covers' : c.Covers (image tree') behind') :
    tree = tree' := by
  -- A reader without limits and with levels enough for both trees reads both of them.
  let levels := depth tree + depth tree' + 1
  have read : Read.codeTree .standard levels c = .ok tree behind :=
    Read.codeTree_eq_ok_iff.2
      ⟨⟨fun node member => ⟨storable node member, Settings.le_largest _⟩, by omega⟩, covers⟩
  have read' : Read.codeTree .standard levels c = .ok tree' behind' :=
    Read.codeTree_eq_ok_iff.2
      ⟨⟨fun node member => ⟨storable' node member, Settings.le_largest _⟩, by omega⟩, covers'⟩
  exact (EStateM.Result.ok.inj (read.symm.trans read')).1

end CodeTree

namespace Program

variable {p p' : Program} {id id' : FunctionId} {d d' : Descriptor Constant}

/-- The references in the pool of a function that unfolds lead to functions. -/
theorem Unfolds.exists_function
    {tree : CodeTree} {next : FunctionId}
    (h : p.Unfolds id tree)
    (found : p.descriptorOf? id = some d)
    (among : .function next ∈ d.pool) :
    ∃ f, p.function? next = some f := by
  obtain ⟨e, pool, found', entries, _⟩ := unfolds_iff.1 h
  obtain rfl := Option.some.inj (found.symm.trans found')
  obtain ⟨sub, _, unfolds⟩ := PoolEntry.exists_nested_of_mem entries among
  obtain ⟨_, _, runs, _, _⟩ := unfolds_iff.1 unfolds
  obtain ⟨f, registered, _⟩ := Option.bind_eq_some_iff.1 runs
  exact ⟨f, registered⟩

/-- Functions that unfold into one tree differ in the references of their pools alone. -/
theorem Unfolds.withPool_eq
    {tree : CodeTree}
    (h : p.Unfolds id tree)
    (h' : p'.Unfolds id' tree)
    (found : p.descriptorOf? id = some d)
    (found' : p'.descriptorOf? id' = some d') :
    d.withPool ([] : List Constant) = d'.withPool [] ∧ d.pool.length = d'.pool.length := by
  obtain ⟨_, pool, runs, entries, rfl⟩ := unfolds_iff.1 h
  obtain ⟨_, pool', runs', entries', same⟩ := unfolds_iff.1 h'
  obtain rfl := Option.some.inj (found.symm.trans runs)
  obtain rfl := Option.some.inj (found'.symm.trans runs')
  have pools : pool = pool' := congrArg Descriptor.pool same
  have same_besides := congrArg (fun tree : CodeTree => tree.withPool ([] : List Constant)) same
  refine ⟨same_besides, ?_⟩
  rw [entries.length_eq, entries'.length_eq, pools]

end Program

namespace Instruction

variable {p p' : Program} {d d' : Descriptor Constant} {i : Instruction}

/-- What an instruction refers to is there in another pool too, if this is as long and its
references lead to functions. -/
theorem Resolves.of_withPool_eq
    (h : i.Resolves p d)
    (same : d.withPool ([] : List Constant) = d'.withPool [])
    (length : d.pool.length = d'.pool.length)
    (registered : ∀ id, .function id ∈ d'.pool → ∃ f, p'.function? id = some f) :
    i.Resolves p' d' := by
  obtain ⟨_, _, _, globals, _, locals, _, _, code⟩ := Descriptor.mk.inj same
  refine ⟨?_, ?_, ?_, ?_, ?_⟩
  · intro index operation
    obtain ⟨_, found, _⟩ := h.constant index operation
    have inside : index.toNat < d'.pool.length := length ▸ (List.getElem?_eq_some_iff.1 found).1
    refine ⟨_, List.getElem?_eq_getElem inside, fun id function => registered id ?_⟩
    rw [← function]
    exact List.getElem_mem inside
  · exact locals ▸ h.slot
  · exact globals ▸ h.global
  · exact code ▸ h.target
  · exact locals ▸ h.captured

end Instruction

namespace Program

variable {p p' : Program} {id id' : FunctionId} {d d' : Descriptor Constant}

/-- Functions that unfold into one tree, be it in different programs, pass verification together. -/
theorem Unfolds.verify_eq_ok
    {tree : CodeTree}
    (h : p.Unfolds id tree)
    (h' : p'.Unfolds id' tree)
    (found : p.descriptorOf? id = some d)
    (found' : p'.descriptorOf? id' = some d')
    (verified : d.verify p = .ok ()) :
    d'.verify p' = .ok () := by
  obtain ⟨same, length⟩ := h.withPool_eq h' found found'
  obtain ⟨sorted, resolves⟩ := Descriptor.verify_eq_ok_iff.1 verified
  obtain ⟨_, _, _, _, _, _, _, lines, code⟩ := Descriptor.mk.inj same
  refine Descriptor.verify_eq_ok_iff.2 ⟨lines ▸ sorted, fun i member => ?_⟩
  exact (resolves i (code ▸ member)).of_withPool_eq same length fun _ =>
    h'.exists_function found'

/-- The program of a tree passes verification exactly when the functions do that lead to the tree
elsewhere. -/
theorem Flattens.verify_eq_ok_iff
    {root root' : FunctionId} {tree : CodeTree}
    (h : p'.Flattens root' tree)
    (unfolds : p.Unfolds root tree) :
    p'.verify = .ok () ↔
      ∀ id d, p.Reaches root id → p.descriptorOf? id = some d → d.verify p = .ok () := by
  rw [Program.verify_eq_ok_iff]
  constructor
  · intro verified id d reaches found
    obtain ⟨node, member, unfolds_id⟩ := reaches.exists_mem_nodes unfolds
    obtain ⟨i, place⟩ := List.mem_iff_getElem?.1 member
    have unfolds_i : p'.Unfolds ⟨i⟩ node := h.unfolds i node place
    obtain ⟨d', _, found', _⟩ := unfolds_iff.1 unfolds_i
    have owned : d' ∈ p'.descriptors := by
      rw [h.paired.descriptorOf?_eq] at found'
      exact Array.mem_of_getElem? found'
    exact unfolds_i.verify_eq_ok unfolds_id found' found (verified d' owned)
  · intro verified d' owned
    obtain ⟨i, found'⟩ := Array.mem_iff_getElem?.1 owned
    obtain ⟨pool, place, _⟩ := h.getElem?_nodes found'
    obtain ⟨id, reaches, unfolds_id⟩ := unfolds.exists_reaches _ (List.mem_of_getElem? place)
    obtain ⟨d, _, found, _⟩ := unfolds_iff.1 unfolds_id
    exact unfolds_id.verify_eq_ok (h.unfolds i _ place) found
      ((h.paired.descriptorOf?_eq i).trans found') (verified id d reaches found)

/-- A program that is read back from its image passes verification exactly when, before it was
stored, all descriptors passed that the root led to. -/
theorem verify_of_decode_of_encode
    {order : ByteOrder} {settings : Settings} {bytes : List UInt8}
    (built : p.Reachable fun d => d.IsMade ∧ d.Addressable)
    (encoded : p.encode order = .ok bytes)
    (same_order : settings.order = order)
    (decoded : decode settings bytes = .ok p') :
    (∃ root, p.root = some root ∧
      (p'.verify = .ok () ↔
        ∀ id d, p.Reaches root id → p.descriptorOf? id = some d → d.verify p = .ok ())) ∧
    (p.verify = .ok () → p'.verify = .ok ()) := by
  subst same_order
  obtain ⟨root, tree, ⟨rooted, unfolds, encodable⟩, rfl⟩ := encode_eq_ok_iff.1 encoded
  have stored : ∀ d ∈ p.descriptors, d.IsMade ∧ d.Addressable :=
    built.forall_descriptors (fun d h => h) fun d made addressable => ⟨made, addressable⟩
  have storable := storable_of_unfolds stored unfolds encodable
  obtain ⟨behind, start, _⟩ := decode_eq_ok_iff.1 decoded
  obtain ⟨tree', readable, covers', made⟩ := decodeStart_eq_ok_iff.1 start
  have covers : (Cursor.start settings.order (CodeTree.image tree settings.order)).Covers
      (CodeTree.image tree) ⟨[], 0 + (CodeTree.image tree settings.order).length, settings.order⟩ :=
    ⟨(List.append_nil _).symm, rfl, rfl⟩
  obtain rfl : tree = tree' :=
    CodeTree.eq_of_covers storable (fun node member => (readable.admitted node member).1)
      covers covers'
  obtain ⟨root', flattens⟩ := flattens_of_ofTree_eq_ok readable.plain made
  have verifies := flattens.verify_eq_ok_iff unfolds
  refine ⟨⟨root, rooted, verifies⟩, fun verified => verifies.2 fun id d _ found => ?_⟩
  obtain ⟨f, _, owned⟩ := Option.bind_eq_some_iff.1 found
  exact Program.verify_eq_ok_iff.1 verified d (Array.mem_of_getElem? owned)

/-- A function that pushes a constant which is not there. -/
def dangling : Descriptor Constant :=
  { (.named "dangling" : Descriptor Constant) with code := [⟨.push, .index 0⟩] }

/-- The functions of `dangling` and of `leaf`, with `leaf` as the root. -/
def abandoned : Program := { ((empty.register dangling).2.register leaf).2 with root := some ⟨1⟩ }

theorem verify_of_decode_of_encode_abandoned :
    abandoned.verify ≠ .ok () ∧
      ∃ bytes p', abandoned.encode .little = .ok bytes ∧ decode .standard bytes = .ok p' ∧
        p'.verify = .ok () := by
  refine ⟨by decide, ?_⟩
  have leaf_stored : leaf.IsMade ∧ leaf.Addressable := by
    refine ⟨⟨.empty, fun i member => by cases member⟩, ?_⟩
    constructor <;> simp [leaf, Descriptor.named, LineMap.empty]
    decide
  have dangling_stored : dangling.IsMade ∧ dangling.Addressable := by
    refine ⟨⟨.empty, fun i member => ?_⟩, ?_⟩
    · obtain rfl := List.mem_singleton.1 member
      exact Instruction.isMade_iff.2 ⟨rfl, trivial⟩
    · constructor <;> simp [dangling, Descriptor.named, LineMap.empty]
      all_goals decide
  have built : abandoned.Reachable fun d => d.IsMade ∧ d.Addressable :=
    .step (.step (.step .empty (.register dangling_stored)) (.register leaf_stored))
      (.setRoot ⟨1⟩ rfl)
  have encodable : ∀ node ∈ CodeTree.nodes (leaf.withPool []), node.Encodable := by
    refine CodeTree.forall_nodes_iff.2 ⟨⟨⟨?_, ?_⟩, ?_⟩, ?_⟩
    all_goals
      intro _ member
      cases member
  have unfolds : abandoned.Unfolds ⟨1⟩ (leaf.withPool []) := .intro (d := leaf) rfl .nil
  have encoded : abandoned.encode .little = .ok (CodeTree.image (leaf.withPool []) .little) :=
    encode_eq_ok_iff.2 ⟨⟨1⟩, _, ⟨rfl, unfolds, encodable⟩, rfl⟩
  have readable : CodeTree.Readable .standard (leaf.withPool []) := by
    refine ⟨CodeTree.forall_nodes_iff.2 ⟨⟨⟨leaf_stored.1.withPool [], ?_, ?_⟩, ?_⟩, ?_⟩, ?_⟩
    · exact leaf_stored.2.withPool rfl
    · exact encodable _ (CodeTree.mem_nodes_self _)
    · exact Settings.le_largest _
    · exact fun _ member => by cases member
    · exact Nat.zero_le _
  obtain ⟨p', root', made, _⟩ := exists_flattens readable.plain
  have decoded : decode .standard (CodeTree.image (leaf.withPool []) .little) = .ok p' :=
    decode_image readable made
  obtain ⟨⟨root, rooted, verifies⟩, _⟩ := verify_of_decode_of_encode built encoded rfl decoded
  refine ⟨_, p', encoded, decoded, verifies.2 fun id d reaches found => ?_⟩
  obtain rfl := Option.some.inj rooted
  cases reaches with
  | refl _ =>
      cases found
      decide
  | through found' among _ =>
      cases found'
      cases among

end Program
end StackCode
