import Mathlib.Algebra.BigOperators.Group.List.Basic
import Mathlib.Algebra.Order.Ring.Nat
import StackCode.Proofs.Listing.Unbroken

/-!
# Lines of listings

A listing is a row of blocks, one for each descriptor. A block holds the mark of the root, a head
line, and a line for each constant, each global and each instruction, in this order, with an empty
line behind them. When no name of the program holds a line feed, no line does, so the blocks can be
read back from the text, and the text has as many lines as the program has things to show.

The mark is set by the position of a descriptor, not by its contents: of descriptors that are equal
only the one that the root function runs has it, and a closure as root marks the descriptor whose
code it shares.

**Results.**
* `Text.splitOn_join_ended`: ended lines are read back from their text.
* `Program.shows_block`: what the lines of a block show.
* `Program.unbroken_of_mem_lines`: none of them holds a line feed.
* `Program.sum_length_mark`: there is one mark, or none.
* `Program.listingText_lines`: the lines of a listing, and how many there are.
-/

namespace StackCode

open Text (Unbroken)

namespace Text

theorem toList_join_ended
    (first : String) (rest : List String) :
    (String.join ((first :: rest).map (· ++ "\n"))).toList =
      first.toList ++ '\n' :: (String.join (rest.map (· ++ "\n"))).toList := by
  simp [String.toList_join]

/-- A text whose lines are all ended splits at the line feeds into its lines, and nothing stands
behind the last. -/
theorem splitOn_join_ended
    {lines : List String}
    (h : ∀ line ∈ lines, Unbroken line) :
    (String.join (lines.map (· ++ "\n"))).toList.splitOn '\n' =
      lines.map String.toList ++ [[]] := by
  induction lines with
  | nil =>
      simp
  | cons first rest ih =>
      obtain ⟨h_first, h_rest⟩ := List.forall_mem_cons.1 h
      have apart : ∀ c ∈ first.toList, (c == '\n') = false := by
        intro c member
        rw [beq_eq_false_iff_ne]
        rintro rfl
        exact h_first member
      rw [toList_join_ended, List.splitOn_eq_splitOnP,
        List.splitOnP_append_cons_of_forall_mem apart '\n' (beq_self_eq_true _),
        ← List.splitOn_eq_splitOnP, ih h_rest]
      rfl

theorem count_join_ended
    {lines : List String}
    (h : ∀ line ∈ lines, Unbroken line) :
    (String.join (lines.map (· ++ "\n"))).toList.count '\n' = lines.length := by
  induction lines with
  | nil =>
      simp
  | cons first rest ih =>
      obtain ⟨h_first, h_rest⟩ := List.forall_mem_cons.1 h
      rw [toList_join_ended, List.count_append, List.count_eq_zero_of_not_mem h_first,
        List.count_cons_self, ih h_rest, List.length_cons, Nat.zero_add]

end Text

/-- No name that the listing of a descriptor shows holds a line feed. -/
structure Descriptor.Unbroken (d : Descriptor Constant) : Prop where
  name : Text.Unbroken d.name
  path : Text.Unbroken d.origin.path
  paths : ∀ start path, (start, .path path) ∈ d.lines.records → Text.Unbroken path
  globals : ∀ name ∈ d.globals, Text.Unbroken name
  operands : ∀ i ∈ d.code, ∀ name ∈ i.operand.spellings, Text.Unbroken name

/-- There is one entry for each item, in order, and it shows the item with its number. -/
def Itemises {α β : Type} (shows : Nat → α → β → Prop) (items : List α) (entries : List β) : Prop :=
  entries.length = items.length ∧
    ∀ k item entry, items[k]? = some item → entries[k]? = some entry → shows k item entry

theorem itemises_mapIdx
    {α β : Type} {shows : Nat → α → β → Prop} {f : Nat → α → β}
    (h : ∀ k item, shows k item (f k item))
    (items : List α) :
    Itemises shows items (items.mapIdx f) := by
  refine ⟨List.length_mapIdx, fun k item entry at_k found => ?_⟩
  rw [List.getElem?_mapIdx, at_k] at found
  exact Option.some.inj found ▸ h k item

/-- The lines of a listing that are about one descriptor. -/
structure Block where
  mark : List String
  head : String
  constants : List String
  globals : List String
  code : List String

namespace Block

/-- The lines of a block, with the empty line behind them. -/
def lines (b : Block) : List String :=
  b.mark ++ b.head :: (b.constants ++ b.globals ++ b.code ++ [""])

/-- The block shows the descriptor at a position of a program. -/
structure Shows (p : Program) (index : Nat) (d : Descriptor Constant) (b : Block) : Prop where
  mark : b.mark =
    if p.rootFunction?.map Function.descriptor = some ⟨index⟩ then ["; root"] else []
  head : ("#" ++ index.repr ++ " function").toList <+: b.head.toList
  constants :
    Itemises (fun k c line => line = "  const " ++ Text.padLeft ' ' 4 k.repr ++ ": " ++ c.text)
      d.pool b.constants
  globals :
    Itemises (fun k name line => line = "  global " ++ Text.padLeft ' ' 3 k.repr ++ ": " ++ name)
      d.globals b.globals
  code : Itemises (fun k i line => ∃ shown, i.Shows k shown line) d.code b.code

end Block

namespace Descriptor

variable {d : Descriptor Constant}

/-- Changes of a location leave its path or set that of a change. -/
theorem unbroken_path_foldl
    {records : List (UInt32 × LineChange)} {l : Location}
    (path : Text.Unbroken l.path)
    (paths : ∀ start path, (start, .path path) ∈ records → Text.Unbroken path) :
    Text.Unbroken (records.foldl (fun l record => l.apply record.2) l).path := by
  induction records generalizing l with
  | nil =>
      exact path
  | cons record rest ih =>
      refine ih ?_ fun start path member => paths start path (List.mem_cons_of_mem _ member)
      obtain ⟨start, change⟩ := record
      cases change with
      | line number => exact path
      | path name => exact paths start name List.mem_cons_self

theorem Unbroken.locate
    (h : d.Unbroken)
    (offset : Nat) :
    Text.Unbroken (d.locate offset).path :=
  unbroken_path_foldl h.path fun start path member =>
    h.paths start path ((List.takeWhile_prefix _).subset member)

theorem headLine_eq
    (d : Descriptor Constant) :
    d.headLine =
      "function " ++ (d.name ++ " (" ++ d.origin.text ++
        (") locals=" ++ d.localCount.toNat.repr) ++ (" stack=" ++ d.operandCount.toNat.repr) ++
        (" josa=" ++ d.particles.count.toNat.repr)) := by
  simp [headLine, toString, String.append_assoc]

theorem Unbroken.headLine
    (h : d.Unbroken) :
    Text.Unbroken d.headLine := by
  have origin : Text.Unbroken d.origin.text := Location.unbroken_text h.path
  simp only [headLine_eq, Text.unbroken_append_iff, Text.unbroken_repr, h.name, origin, and_true]
  decide

theorem numberedLines_eq_mapIdx
    {α : Type}
    (label : String) (width : Nat) (text : α → String) (items : List α) :
    numberedLines label width (items.map text) =
      items.mapIdx fun k item =>
        "  " ++ label ++ " " ++ Text.padLeft ' ' width k.repr ++ ": " ++ text item := by
  rw [numberedLines, List.mapIdx_eq_zipIdx_map, List.zipIdx_map, List.map_map]
  rfl

theorem unbroken_of_mem_numberedLines
    {α : Type}
    {label line : String} {width : Nat} {text : α → String} {items : List α}
    (h : Text.Unbroken label)
    (h' : ∀ item ∈ items, Text.Unbroken (text item))
    (member : line ∈ numberedLines label width (items.map text)) :
    Text.Unbroken line := by
  rw [numberedLines_eq_mapIdx] at member
  obtain ⟨k, inside, rfl⟩ := List.mem_mapIdx.1 member
  have item := h' items[k] (List.getElem_mem inside)
  simp only [Text.unbroken_append_iff, Text.unbroken_padLeft_iff, Text.unbroken_repr, h, item,
    and_true]
  decide

theorem codeLines_eq_mapIdx
    (d : Descriptor Constant) :
    d.codeLines 0 none d.code = d.code.mapIdx d.codeLine := by
  refine List.ext_getElem? fun k => ?_
  have line : (d.codeLines 0 (d.lineBefore 0) d.code)[k]? = d.code[k]?.map (d.codeLine (0 + k)) :=
    getElem?_codeLines
  rwa [Nat.zero_add, ← List.getElem?_mapIdx] at line

theorem unbroken_bareLine
    {k : Nat} {text : String}
    (h : Text.Unbroken text) :
    Text.Unbroken (bareLine k text) := by
  simp only [bareLine, Text.unbroken_append_iff, Text.unbroken_padLeft_iff]
  exact ⟨⟨⟨by decide, Text.unbroken_repr k⟩, by decide⟩, h⟩

theorem Unbroken.codeLine
    (h : d.Unbroken)
    {i : Instruction} {k : Nat}
    (member : i ∈ d.code) :
    Text.Unbroken (d.codeLine k i) := by
  have text : Text.Unbroken i.text := Instruction.unbroken_text (h.operands i member)
  by_cases repeats : d.Repeats k
  · rw [codeLine_of_repeats repeats]
    exact unbroken_bareLine text
  · have padded : Text.Unbroken (Text.padRight 32 i.text) := Text.unbroken_padRight_iff.2 text
    have location : Text.Unbroken (d.locate k).text := Location.unbroken_text (h.locate k)
    rw [codeLine_of_not_repeats repeats, Text.unbroken_append_iff, Text.unbroken_append_iff]
    exact ⟨⟨unbroken_bareLine padded, by decide⟩, location⟩

theorem exists_shows_codeLine
    (d : Descriptor Constant) (k : Nat) (i : Instruction) :
    ∃ shown, i.Shows k shown (d.codeLine k i) := by
  by_cases repeats : d.Repeats k
  · exact ⟨none, codeLine_of_repeats repeats ▸ .bare⟩
  · exact ⟨some (d.locate k), codeLine_of_not_repeats repeats ▸ .located _⟩

end Descriptor

namespace Program

variable {p : Program}

/-- The mark in front of the descriptor at a position. -/
def mark (p : Program) (index : Nat) : List String :=
  if p.rootDescriptorId? = some ⟨index⟩ then ["; root"] else []

theorem mem_mark
    {index : Nat} {line : String}
    (member : line ∈ p.mark index) :
    line = "; root" := by
  unfold mark at member
  split at member
  · exact List.mem_singleton.1 member
  · cases member

/-- The lines of the descriptor at a position, by what they show. -/
def block (p : Program) (index : Nat) (d : Descriptor Constant) : Block where
  mark := p.mark index
  head := s!"#{index} " ++ d.headLine
  constants := Descriptor.numberedLines "const" 4 (d.pool.map Constant.text)
  globals := Descriptor.numberedLines "global" 3 d.globals
  code := d.codeLines 0 none d.code

theorem lines_block
    (p : Program) (index : Nat) (d : Descriptor Constant) :
    (p.block index d).lines = p.descriptorListing d index := by
  simp [block, mark, Block.lines, descriptorListing, Descriptor.bodyLines]

theorem length_lines_block
    (p : Program) (index : Nat) (d : Descriptor Constant) :
    (p.block index d).lines.length =
      (p.mark index).length + (2 + d.pool.length + d.globals.length + d.code.length) := by
  simp only [Block.lines, block, Descriptor.codeLines_eq_mapIdx, Descriptor.numberedLines,
    List.length_append, List.length_cons, List.length_nil, List.length_map, List.length_zipIdx,
    List.length_mapIdx]
  omega

/-- The blocks of a program, one for each descriptor. -/
def blocks (p : Program) : List Block := p.descriptors.toList.mapIdx p.block

theorem listing_eq_flatMap_lines
    (p : Program) :
    p.listing = p.blocks.flatMap Block.lines := by
  rw [blocks, List.mapIdx_eq_zipIdx_map, List.flatMap_map]
  simp only [lines_block]
  rfl

theorem rootDescriptorId?_eq_some_iff
    {index : Nat}
    (inside : index < p.descriptorCount) :
    p.rootDescriptorId? = some ⟨index⟩ ↔
      p.rootFunction?.map Function.descriptor = some ⟨index⟩ := by
  rw [rootDescriptorId?]
  cases p.rootFunction? with
  | none =>
      rfl
  | some f =>
      rw [Option.bind_some, Option.map_some, Option.some_inj]
      split
      · exact Option.some_inj
      · next outside =>
        refine iff_of_false nofun fun same => ?_
        rw [same] at outside
        exact outside inside

theorem rootDescriptor?_eq_bind
    (p : Program) :
    p.rootDescriptor? = p.rootFunction?.bind fun f => p.descriptor? f.descriptor := by
  rw [rootDescriptor?, rootFunction?, Option.bind_assoc]
  rfl

theorem shows_block
    {index : Nat} {d : Descriptor Constant}
    (found : p.descriptors[index]? = some d) :
    Block.Shows p index d (p.block index d) := by
  obtain ⟨inside, -⟩ := Array.getElem?_eq_some_iff.1 found
  constructor
  case mark =>
    exact if_congr (rootDescriptorId?_eq_some_iff inside) rfl rfl
  case head =>
    obtain ⟨rest, text⟩ : ∃ rest, d.headLine = "function " ++ rest := ⟨_, d.headLine_eq⟩
    refine ⟨' ' :: rest.toList, ?_⟩
    simp [block, text, toString]
  case constants =>
    rw [block, Descriptor.numberedLines_eq_mapIdx]
    refine itemises_mapIdx (fun k item => ?_) _
    rfl
  case globals =>
    have lines := Descriptor.numberedLines_eq_mapIdx "global" 3 id d.globals
    rw [List.map_id] at lines
    rw [block, lines]
    refine itemises_mapIdx (fun k item => ?_) _
    rfl
  case code =>
    rw [block, Descriptor.codeLines_eq_mapIdx]
    refine itemises_mapIdx (fun k i => ?_) _
    exact d.exists_shows_codeLine k i

theorem unbroken_of_mem_lines
    {index : Nat} {d : Descriptor Constant} {line : String}
    (h : d.Unbroken)
    (member : line ∈ (p.block index d).lines) :
    Unbroken line := by
  simp only [Block.lines, List.mem_append, List.mem_cons, List.not_mem_nil, or_false] at member
  rcases member with mark | rfl | ((constant | global) | code) | rfl
  · obtain rfl := mem_mark mark
    decide
  · have text : (p.block index d).head = "#" ++ (index.repr ++ " ") ++ d.headLine := by
      simp [block, toString, String.append_assoc]
    rw [text, Text.unbroken_append_iff]
    exact ⟨Text.unbroken_numbered index (by decide) (by decide), h.headLine⟩
  · exact Descriptor.unbroken_of_mem_numberedLines (by decide)
      (fun c _ => c.unbroken_text) constant
  · rw [block, ← List.map_id d.globals] at global
    exact Descriptor.unbroken_of_mem_numberedLines (by decide) h.globals global
  · rw [block, Descriptor.codeLines_eq_mapIdx] at code
    obtain ⟨k, inside, rfl⟩ := List.mem_mapIdx.1 code
    exact h.codeLine (List.getElem_mem inside)
  · decide

/-- A mark for one position, whatever the position, is set once if it lies in range. -/
theorem sum_range_ite_eq
    (index count : Nat) :
    ((List.range count).map fun k => if index = k then 1 else 0).sum =
      if index < count then 1 else 0 := by
  induction count with
  | zero =>
      simp
  | succ count ih =>
      rw [List.range_succ, List.map_append, List.sum_append, ih, List.map_singleton,
        List.sum_singleton]
      split_ifs <;> omega

theorem sum_length_mark
    (p : Program) :
    ((List.range p.descriptorCount).map fun index => (p.mark index).length).sum =
      if p.rootDescriptor?.isSome then 1 else 0 := by
  have length : ∀ index ∈ List.range p.descriptorCount, (p.mark index).length =
      if p.rootFunction?.map Function.descriptor = some ⟨index⟩ then 1 else 0 := by
    intro index member
    rw [mark, apply_ite List.length]
    exact if_congr (rootDescriptorId?_eq_some_iff (List.mem_range.1 member)) rfl rfl
  rw [List.map_congr_left length, rootDescriptor?_eq_bind]
  cases p.rootFunction? with
  | none =>
      simp
  | some f =>
      have same (index : Nat) :
          some f.descriptor = some ⟨index⟩ ↔ f.descriptor.index = index := by
        rw [Option.some_inj, DescriptorId.mk.injEq]
      simp only [Option.map_some, Option.bind_some, same, sum_range_ite_eq]
      exact if_congr (by simp [descriptor?, descriptorCount]) rfl rfl

theorem length_listing
    (p : Program) :
    p.listing.length =
      (p.descriptors.toList.map fun d =>
        2 + d.pool.length + d.globals.length + d.code.length).sum +
      if p.rootDescriptor?.isSome then 1 else 0 := by
  rw [listing_eq_flatMap_lines, List.length_flatMap, blocks, List.mapIdx_eq_zipIdx_map]
  simp only [List.map_map, Function.comp_def, length_lines_block]
  have positions := List.zipIdx_map_snd 0 p.descriptors.toList
  rw [List.sum_map_add, Nat.add_comm, ← sum_length_mark, List.range_eq_range', descriptorCount,
    ← Array.length_toList, ← positions, List.map_map]
  congr 1
  conv_rhs => rw [← List.zipIdx_map_fst 0 p.descriptors.toList, List.map_map]
  rfl

theorem itemises_blocks
    (p : Program) :
    Itemises (Block.Shows p) p.descriptors.toList p.blocks := by
  refine ⟨List.length_mapIdx, fun index d b at_index found => ?_⟩
  rw [blocks, List.getElem?_mapIdx, at_index] at found
  rw [Array.getElem?_toList] at at_index
  exact Option.some.inj found ▸ shows_block at_index

theorem unbroken_of_mem_listing
    {line : String}
    (h : ∀ d ∈ p.descriptors, d.Unbroken)
    (member : line ∈ p.listing) :
    Unbroken line := by
  rw [listing_eq_flatMap_lines, List.mem_flatMap] at member
  obtain ⟨b, member, line_of⟩ := member
  obtain ⟨index, inside, rfl⟩ := List.mem_mapIdx.1 member
  have registered := Array.mem_toList_iff.1 (List.getElem_mem inside)
  exact unbroken_of_mem_lines (h _ registered) line_of

/-- The text of a listing consists of one block for each descriptor in order, and each line is
ended. So there are two lines for each descriptor, one for each of its constants, globals and
instructions, and one more if the root runs a descriptor. -/
theorem listingText_lines
    (p : Program)
    (unbroken : ∀ d ∈ p.descriptors, d.Unbroken) :
    ∃ blocks,
      Itemises (Block.Shows p) p.descriptors.toList blocks ∧
      p.listingText.toList.splitOn '\n' =
        (blocks.flatMap Block.lines).map String.toList ++ [[]] ∧
      p.listingText.toList.count '\n' =
        (p.descriptors.toList.map fun d =>
          2 + d.pool.length + d.globals.length + d.code.length).sum +
        if p.rootDescriptor?.isSome then 1 else 0 := by
  have lines : ∀ line ∈ p.listing, Unbroken line := fun _ => unbroken_of_mem_listing unbroken
  refine ⟨p.blocks, p.itemises_blocks, ?_, ?_⟩
  · rw [listingText, Text.splitOn_join_ended lines, listing_eq_flatMap_lines]
  · rw [listingText, Text.count_join_ended lines, length_listing]

/-- A descriptor with a line feed among its constants. -/
def feeding : Descriptor Constant :=
  { (.named "feeding" : Descriptor Constant) with
    pool := [.character '\n', .boolean true]
    globals := ["a"]
    code := [⟨.pop, .none⟩] }

/-- Two equal descriptors, of which a closure as root runs the second. -/
def alike : Program :=
  let closure := (Function.ofDescriptor ⟨1⟩ feeding).withCaptures [.nothing]
  { (((empty.register feeding).2.register feeding).2.addFunction closure).2 with root := some ⟨2⟩ }

theorem alike_listingText_lines :
    (∀ d ∈ alike.descriptors, d.Unbroken) ∧ alike.listingText.toList.count '\n' = 13 := by
  have unbroken : ∀ d ∈ alike.descriptors, d.Unbroken := by
    have descriptors : alike.descriptors = #[feeding, feeding] := rfl
    intro d member
    obtain rfl : d = feeding := by simpa [descriptors] using member
    exact ⟨by decide, by decide, nofun, by decide, by decide⟩
  obtain ⟨-, -, -, count⟩ := listingText_lines alike unbroken
  exact ⟨unbroken, count⟩

end Program
end StackCode
