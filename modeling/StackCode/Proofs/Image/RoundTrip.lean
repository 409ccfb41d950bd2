import StackCode.Proofs.Image.Writing
import StackCode.Proofs.Program.Run

/-!
# Round trips

A program that was decoded is the program of a tree, and its image in either byte order is the image
of this tree; so writing gives back the bytes that were read, and the other order loses nothing.

A program that was built is a graph of functions. Its image is that of the tree which its root
unfolds into, so reading gives back this tree, with one function for each place in it.

**Results.**
* `Program.encode_of_decode`: decoding, then encoding.
* `Program.decode_of_encode`: encoding, then decoding.
-/

namespace StackCode
namespace Program

/-- A program that consists of the functions of a tree is written as the tree. -/
theorem Flattens.encode_eq
    {p : Program} {root : FunctionId} {tree : CodeTree}
    (h : p.Flattens root tree)
    (encodable : ∀ node ∈ CodeTree.nodes tree, node.Encodable)
    (order : ByteOrder) :
    p.encode order = .ok (CodeTree.image tree order) :=
  encode_eq_ok_iff.2 ⟨root, tree, ⟨h.root_eq, h.unfolds_root, encodable⟩, rfl⟩

/-- Encoding a decoded program gives back the bytes that were read, and encoding it in any byte
order gives bytes that are decoded as the same program. -/
theorem encode_of_decode
    {settings : Settings} {bytes : List UInt8} {p : Program}
    (h : decode settings bytes = .ok p) :
    ∃ out behind,
      p.encode settings.order = .ok out ∧
      decodeStart settings bytes = .ok (p, behind) ∧
      bytes = out ++ behind.rest ∧
      behind.offset = out.length ∧
      (settings.rejectTrailing = true → behind.rest = []) ∧
      ∀ order, ∃ out',
        p.encode order = .ok out' ∧
        decode { settings with order, rejectTrailing := true } out' = .ok p := by
  obtain ⟨behind, start, rejects⟩ := decode_eq_ok_iff.1 h
  obtain ⟨tree, readable, covers, made⟩ := decodeStart_eq_ok_iff.1 start
  obtain ⟨root, flattens⟩ := flattens_of_ofTree_eq_ok readable.plain made
  have encodes (order : ByteOrder) : p.encode order = .ok (CodeTree.image tree order) :=
    flattens.encode_eq (fun node member => (readable.admitted node member).1.encodable) order
  have length : behind.offset = (CodeTree.image tree settings.order).length :=
    covers.offset.trans (Nat.zero_add _)
  refine ⟨_, behind, encodes settings.order, start, covers.rest, length, rejects, ?_⟩
  intro order
  exact ⟨_, encodes order, decode_image (readable.of_limits_eq rfl rfl) made⟩

/-- The image of a function that holds another, with one byte behind it. -/
def pairWithTrailing : List UInt8 :=
  .replicate 21 0 ++ [1] ++ .replicate 7 0 ++ [5] ++ .replicate 97 0 ++ [255]

theorem encode_of_decode_pair :
    ∃ p, decode .standard pairWithTrailing = .ok p ∧ p.functionCount = 2 ∧
      (∃ out rest, p.encode .little = .ok out ∧ pairWithTrailing = out ++ rest) ∧
      ∃ out, p.encode .big = .ok out ∧
        decode { Settings.standard with order := .big, rejectTrailing := true } out = .ok p := by
  have decoded : ∃ p, decode .standard pairWithTrailing = .ok p ∧ p.functionCount = 2 :=
    ⟨_, rfl, rfl⟩
  obtain ⟨p, decoded, count⟩ := decoded
  obtain ⟨out, behind, encoded, _, same, _, _, transcodes⟩ := encode_of_decode decoded
  exact ⟨p, decoded, count, ⟨out, behind.rest, encoded, same⟩, transcodes .big⟩

/-- The functions of a tree can be read if the descriptors of the program can be stored and the tree
can be written. -/
theorem storable_of_unfolds
    {p : Program} {root : FunctionId} {tree : CodeTree}
    (stored : ∀ d ∈ p.descriptors, d.IsMade ∧ d.Addressable)
    (unfolds : p.Unfolds root tree)
    (encodable : ∀ node ∈ CodeTree.nodes tree, node.Encodable) :
    ∀ node ∈ CodeTree.nodes tree, node.Storable := by
  intro node member
  obtain ⟨id, _, unfolds_node⟩ := unfolds.exists_reaches node member
  obtain ⟨d, pool, found, entries, rfl⟩ := unfolds_iff.1 unfolds_node
  obtain ⟨f, _, found⟩ := Option.bind_eq_some_iff.1 found
  obtain ⟨made, addressable⟩ := stored d (Array.mem_of_getElem? found)
  exact ⟨made.withPool pool, addressable.withPool entries.length_eq.symm, encodable _ member⟩

/-- Decoding an encoded program gives back the tree of its root, if the settings allow for the
depth and the operands of the tree. There is one descriptor and one function for each function of
the tree, in order. -/
theorem decode_of_encode
    {p : Program} {order : ByteOrder} {bytes : List UInt8}
    (built : p.Reachable fun d => d.IsMade ∧ d.Addressable)
    (encoded : p.encode order = .ok bytes) :
    ∃ root tree,
      p.root = some root ∧
      p.Unfolds root tree ∧
      (∀ other, p.Unfolds root other → other = tree) ∧
      ∀ settings : Settings,
        settings.order = order →
        settings.rejectTrailing = true →
        CodeTree.depth tree ≤ settings.maxDepth.toNat →
        (∀ node ∈ CodeTree.nodes tree, node.operandCount ≤ settings.maxOperands) →
        ∃ p' root',
          decode settings bytes = .ok p' ∧
          p'.root = some root' ∧
          p'.Unfolds root' tree ∧
          p'.descriptorCount = (CodeTree.nodes tree).length ∧
          p'.functionCount = (CodeTree.nodes tree).length ∧
          ∀ i node, (CodeTree.nodes tree)[i]? = some node → p'.Unfolds ⟨i⟩ node := by
  obtain ⟨root, tree, ⟨rooted, unfolds, encodable⟩, rfl⟩ := encode_eq_ok_iff.1 encoded
  refine ⟨root, tree, rooted, unfolds, fun other h => h.unique unfolds, ?_⟩
  rintro settings rfl _ depth operands
  have stored : ∀ d ∈ p.descriptors, d.IsMade ∧ d.Addressable :=
    built.forall_descriptors (fun d h => h) fun d made addressable => ⟨made, addressable⟩
  have storable := storable_of_unfolds stored unfolds encodable
  have readable : CodeTree.Readable settings tree :=
    ⟨fun node member => ⟨storable node member, operands node member⟩, depth⟩
  obtain ⟨p', root', made, flattens⟩ := exists_flattens readable.plain
  exact ⟨p', root', decode_image readable made, flattens.root_eq, flattens.unfolds_root,
    flattens.count, flattens.paired.functionCount_eq.trans flattens.count, flattens.unfolds⟩

/-- A function that does nothing. -/
def leaf : Descriptor Constant := .named "leaf"

/-- A function that refers twice to another and once to a closure over the same code. -/
def caller : Descriptor Constant :=
  (.named "caller" : Descriptor Constant).withPool [.function ⟨0⟩, .function ⟨1⟩, .function ⟨0⟩]

/-- The functions of `leaf`, of a closure over its code, and of `caller`. -/
def family : Program :=
  let p := (empty.register leaf).2
  let p := (p.addFunction ((Function.ofDescriptor ⟨0⟩ leaf).withCaptures [.boolean true])).2
  (p.register caller).2

/-- The program of these functions with `caller` as its root. -/
def sharing : Program := { family with root := some ⟨2⟩ }

/-- The tree of `caller` in `sharing`. -/
def sharingTree : CodeTree :=
  caller.withPool (.replicate 3 (.nested (leaf.withPool [])))

theorem decode_of_encode_sharing :
    ∃ bytes p',
      sharing.encode .big = .ok bytes ∧
      decode { Settings.standard with order := .big, rejectTrailing := true } bytes = .ok p' ∧
      p'.functionCount = 4 := by
  have stored (name : String) (pool : List Constant) (short : name.utf8ByteSize < UInt64.size)
      (few : pool.length < UInt64.size) :
      ((.named name : Descriptor Constant).withPool pool).IsMade ∧
        ((.named name : Descriptor Constant).withPool pool).Addressable := by
    refine ⟨⟨.empty, fun _ h => by cases h⟩, ?_⟩
    constructor <;> simp [Descriptor.named, Descriptor.withPool, LineMap.empty, short, few]
  have built : sharing.Reachable fun d => d.IsMade ∧ d.Addressable := by
    refine .step (p := family) ?_ (.setRoot ⟨2⟩ rfl)
    refine .step ?_ (.register (stored "caller" _ (by decide) (by decide)))
    refine .step ?_ (.addFunction (.withCaptures [.boolean true] (.own ⟨0⟩ rfl)))
    exact .step .empty (.register (stored "leaf" [] (by decide) (by decide)))
  have leaf_unfolds (id : FunctionId) (runs : sharing.descriptorOf? id = some leaf) :
      PoolEntry.StandsFor sharing.Unfolds (.function id) (.nested (leaf.withPool [])) :=
    .nested (.intro runs .nil)
  have unfolds : sharing.Unfolds ⟨2⟩ sharingTree :=
    .intro (d := caller) rfl
      (.cons (leaf_unfolds ⟨0⟩ rfl) (.cons (leaf_unfolds ⟨1⟩ rfl)
        (.cons (leaf_unfolds ⟨0⟩ rfl) .nil)))
  have encoded : sharing.encode .big = .ok (CodeTree.image sharingTree .big) := by
    have writable (d : Descriptor Constant) (code : d.code = []) (particles : d.particles = .empty)
        (pool : List PoolEntry) : (d.withPool pool).Writable :=
      Descriptor.writable_withPool_iff.2
        ⟨by simp [particles, NameList.Short, NameList.empty], by simp [code]⟩
    refine encode_eq_ok_iff.2 ⟨⟨2⟩, sharingTree, ⟨rfl, unfolds, ?_⟩, rfl⟩
    have inner : ∀ node ∈ CodeTree.nodes (leaf.withPool []), node.Encodable :=
      CodeTree.forall_nodes_iff.2
        ⟨⟨writable leaf rfl rfl [], fun _ h => by cases h⟩, fun _ h => by cases h⟩
    refine CodeTree.forall_nodes_iff.2 ⟨⟨writable caller rfl rfl _, ?_⟩, ?_⟩
    · intro entry member
      rw [List.eq_of_mem_replicate member]
      trivial
    · intro sub member
      cases List.eq_of_mem_replicate member
      exact inner
  obtain ⟨root, tree, rooted, _, unique, decodes⟩ := decode_of_encode built encoded
  obtain rfl := Option.some.inj rooted
  obtain rfl := unique sharingTree unfolds
  obtain ⟨p', _, decoded, _, _, _, count, _⟩ := decodes
    { Settings.standard with order := .big, rejectTrailing := true } rfl rfl (by decide) (by decide)
  exact ⟨_, p', encoded, decoded, count⟩

end Program
end StackCode
