import Mathlib.Data.List.Induction
import StackCode.Proofs.Image.Report
import StackCode.Session

/-!
# Runs over sessions

A session keeps bytes and a program side by side, and an operation can replace one and leave the
other. What holds along every run is that the two fit together: the bytes are those that were loaded
last, and the program is none, or the one that these bytes are the image of. Parsing looks at the
bytes and the settings alone, so its answer does not depend on what was done since the bytes were
loaded.

**Results.**
* `Session.Reflects.after`: what one operation keeps.
* `Session.reflects_run`: what every run keeps.
* `Session.faithful_run`: what the operations answer after any run.
-/

namespace StackCode
namespace Session

/-- An operation on a session. To load the file at a path is given what came of opening it. -/
inductive Operation where
  | loadBytes (bytes : List UInt8)
  | loadFile (path : String) (opened : Except FileFault OpenFile)
  | parse
  | takeResult

/-- The bytes that an operation loads, if it succeeds in loading some. -/
def Operation.loaded? : Operation → Option (List UInt8)
  | loadBytes bytes => some bytes
  | loadFile _ (.ok ⟨announced, .ok bytes⟩) =>
    if announced.toNat ≤ bytes.length then some bytes else none
  | loadFile _ _ | parse | takeResult => none

/-- The session that an operation leaves behind. -/
def after (s : Session) : Operation → Session
  | .loadBytes bytes => s.loadBytes bytes
  | .loadFile path opened => (s.loadFile path opened).2
  | .parse => s.parse.2
  | .takeResult => s.takeResult.2

/-- The session that operations leave behind, one after the other. -/
def run (s : Session) (operations : List Operation) : Session := operations.foldl after s

/-- The bytes of the last operation that loaded some. -/
def lastLoaded (operations : List Operation) : Option (List UInt8) :=
  (operations.filterMap Operation.loaded?).getLast?

/-- A session has its settings from the start and the bytes that were loaded last, and its program
is the empty one or is read from these bytes. -/
structure Reflects (settings : Settings) (loaded : Option (List UInt8)) (s : Session) : Prop where
  settings_eq : s.settings = settings
  bytes_eq : s.bytes = loaded
  result : s.result = .empty ∨
    ∃ bytes, loaded = some bytes ∧ Program.decode settings bytes = .ok s.result

variable {s : Session} {settings : Settings} {loaded : Option (List UInt8)} {bytes : List UInt8}

theorem run_append
    (s : Session) (operations later : List Operation) :
    s.run (operations ++ later) = (s.run operations).run later :=
  List.foldl_append

theorem lastLoaded_concat
    (operations : List Operation) (o : Operation) :
    lastLoaded (operations ++ [o]) = o.loaded?.or (lastLoaded operations) := by
  rw [lastLoaded, List.filterMap_append]
  cases h : o.loaded? with
  | none =>
      simp [h, lastLoaded]
  | some bytes =>
      simp [h]

/-- Operations that load nothing leave the bytes that were loaded before. -/
theorem lastLoaded_append_of_none
    {operations later : List Operation}
    (nothing : ∀ o ∈ later, o.loaded? = none) :
    lastLoaded (operations ++ later) = lastLoaded operations := by
  rw [lastLoaded, List.filterMap_append, List.filterMap_eq_nil_iff.2 nothing, List.append_nil]
  rfl

theorem lastLoaded_eq_none_iff
    {operations : List Operation} :
    lastLoaded operations = none ↔ ∀ o ∈ operations, o.loaded? = none := by
  rw [lastLoaded, List.getLast?_eq_none_iff, List.filterMap_eq_nil_iff]

theorem readAll_of_lt
    {announced : UInt64}
    (short : bytes.length < announced.toNat) :
    OpenFile.readAll ⟨announced, .ok bytes⟩ =
      .error (.endsEarly announced.toNat bytes.length) := by
  change (if bytes.length < announced.toNat then _ else _) = _
  rw [if_pos short]
  rfl

theorem readAll_of_le
    {announced : UInt64}
    (enough : announced.toNat ≤ bytes.length) :
    OpenFile.readAll ⟨announced, .ok bytes⟩ = .ok bytes := by
  change (if bytes.length < announced.toNat then _ else _) = _
  rw [if_neg (Nat.not_lt.2 enough)]
  rfl

theorem parse_of_not_loaded
    (h : s.bytes = none) :
    s.parse = (.error .notLoaded, s) := by
  rw [parse, h]

theorem parse_of_decode_eq_ok
    {p : Program}
    (h : s.bytes = some bytes)
    (decoded : Program.decode s.settings bytes = .ok p) :
    s.parse = (.ok (), { s with result := p }) := by
  simp only [parse, h, decoded]

theorem parse_of_decode_eq_error
    {e : Error}
    (h : s.bytes = some bytes)
    (refused : Program.decode s.settings bytes = .error e) :
    s.parse = (.error e, { s with result := .empty }) := by
  simp only [parse, h, refused]

/-- That nothing is loaded is no answer of decoding, which reports on bytes. -/
theorem decode_ne_notLoaded :
    Program.decode settings bytes ≠ .error .notLoaded := by
  intro refused
  rcases Program.decode_eq_error_iff.1 refused with start | ⟨_, _, _, _, trailing⟩
  · exact Program.truthful_of_decodeStart_eq_error start
  · cases trailing

theorem loadFile_of_lt
    {path : String} {announced : UInt64}
    (short : bytes.length < announced.toNat) :
    s.loadFile path (.ok ⟨announced, .ok bytes⟩) =
      (.error (.unreadableFile path (.endsEarly announced.toNat bytes.length)), s) := by
  change s.load path (OpenFile.readAll ⟨announced, .ok bytes⟩) = _
  rw [readAll_of_lt short, load]

theorem loadFile_of_le
    {path : String} {announced : UInt64}
    (enough : announced.toNat ≤ bytes.length) :
    s.loadFile path (.ok ⟨announced, .ok bytes⟩) = (.ok (), s.loadBytes bytes) := by
  change s.load path (OpenFile.readAll ⟨announced, .ok bytes⟩) = _
  rw [readAll_of_le enough, load]

/-- What loading a file comes to: its bytes, if they are as many as announced. -/
theorem loadFile_outcome
    (s : Session) (path : String) (opened : Except FileFault OpenFile) :
    (∃ bytes, (Operation.loadFile path opened).loaded? = some bytes ∧
      s.loadFile path opened = (.ok (), s.loadBytes bytes)) ∨
    ∃ fault, (Operation.loadFile path opened).loaded? = none ∧
      s.loadFile path opened = (.error (.unreadableFile path fault), s) := by
  rcases opened with fault | ⟨announced, fault | bytes⟩
  · exact Or.inr ⟨fault, rfl, rfl⟩
  · exact Or.inr ⟨fault, rfl, rfl⟩
  · rcases Nat.lt_or_ge bytes.length announced.toNat with short | enough
    · exact Or.inr ⟨_, if_neg (Nat.not_le.2 short), loadFile_of_lt short⟩
    · exact Or.inl ⟨bytes, if_pos enough, loadFile_of_le enough⟩

/-- A file that cannot be loaded leaves the session as it is. -/
theorem eq_of_loadFile_eq_error
    {path : String} {opened : Except FileFault OpenFile} {e : Error}
    (s : Session)
    (refused : (s.loadFile path opened).1 = .error e) :
    (∃ fault, e = .unreadableFile path fault) ∧ (s.loadFile path opened).2 = s := by
  rcases s.loadFile_outcome path opened with ⟨bytes, _, done⟩ | ⟨fault, _, refused'⟩
  · rw [done] at refused
    cases refused
  · rw [refused'] at refused ⊢
    cases refused
    exact ⟨⟨fault, rfl⟩, rfl⟩

theorem reflects_start
    (settings : Settings) :
    (start settings).Reflects settings none :=
  ⟨rfl, rfl, Or.inl rfl⟩

/-- New bytes drop the program, as it was read from others. -/
theorem Reflects.loadBytes
    (h : s.Reflects settings loaded)
    (bytes : List UInt8) :
    (s.loadBytes bytes).Reflects settings (some bytes) :=
  ⟨h.settings_eq, rfl, Or.inl rfl⟩

theorem Reflects.parse
    (h : s.Reflects settings loaded) :
    s.parse.2.Reflects settings loaded := by
  cases loaded with
  | none =>
      rw [parse_of_not_loaded h.bytes_eq]
      exact h
  | some bytes =>
      cases decoded : Program.decode s.settings bytes with
      | ok p =>
          rw [parse_of_decode_eq_ok h.bytes_eq decoded]
          exact ⟨h.settings_eq, h.bytes_eq, Or.inr ⟨bytes, rfl, h.settings_eq ▸ decoded⟩⟩
      | error e =>
          rw [parse_of_decode_eq_error h.bytes_eq decoded]
          exact ⟨h.settings_eq, h.bytes_eq, Or.inl rfl⟩

/-- What one operation keeps: the bytes are replaced when it loads some. -/
theorem Reflects.after
    (h : s.Reflects settings loaded)
    (o : Operation) :
    (s.after o).Reflects settings (o.loaded?.or loaded) := by
  cases o with
  | loadBytes bytes =>
      exact h.loadBytes bytes
  | loadFile path opened =>
      rcases s.loadFile_outcome path opened with ⟨bytes, loads, done⟩ | ⟨fault, nothing, refused⟩
      · rw [Session.after, done, loads]
        exact h.loadBytes bytes
      · rw [Session.after, refused, nothing]
        exact h
  | parse =>
      exact h.parse
  | takeResult =>
      exact ⟨h.settings_eq, h.bytes_eq, Or.inl rfl⟩

/-- What every run keeps. -/
theorem reflects_run
    (settings : Settings) (operations : List Operation) :
    ((start settings).run operations).Reflects settings (lastLoaded operations) := by
  induction operations using List.reverseRecOn with
  | nil =>
      exact reflects_start settings
  | append_singleton operations o ih =>
      rw [run_append, lastLoaded_concat]
      exact ih.after o

/-- Parsing answers as decoding does. -/
theorem Reflects.parse_answer
    (h : s.Reflects settings (some bytes)) :
    s.parse.1 = (Program.decode settings bytes).map (fun _ => ()) ∧
      ∀ p, Program.decode settings bytes = .ok p → s.parse.2.result = p := by
  obtain rfl := h.settings_eq
  cases decoded : Program.decode s.settings bytes with
  | ok p =>
      rw [parse_of_decode_eq_ok h.bytes_eq decoded]
      exact ⟨rfl, fun p' same => Except.ok.inj same⟩
  | error e =>
      rw [parse_of_decode_eq_error h.bytes_eq decoded]
      exact ⟨rfl, fun p' other => by cases other⟩

/-- A parse that fails leaves no program, and the bytes as they are. -/
theorem Reflects.parse_failure
    {e : Error}
    (h : s.Reflects settings loaded)
    (refused : s.parse.1 = .error e) :
    s.parse.2.result = .empty ∧ s.parse.2.bytes = s.bytes := by
  cases loaded with
  | none =>
      rw [parse_of_not_loaded h.bytes_eq]
      rcases h.result with empty | ⟨bytes, other, _⟩
      · exact ⟨empty, rfl⟩
      · cases other
  | some bytes =>
      cases decoded : Program.decode s.settings bytes with
      | ok p =>
          rw [parse_of_decode_eq_ok h.bytes_eq decoded] at refused
          cases refused
      | error e' =>
          rw [parse_of_decode_eq_error h.bytes_eq decoded]
          exact ⟨rfl, rfl⟩

theorem Reflects.parse_eq_notLoaded_iff
    (h : s.Reflects settings loaded) :
    s.parse.1 = .error .notLoaded ↔ loaded = none := by
  cases loaded with
  | none =>
      rw [parse_of_not_loaded h.bytes_eq]
      exact iff_of_true rfl rfl
  | some bytes =>
      rw [h.parse_answer.1]
      refine iff_of_false (fun refused => ?_) (fun other => by cases other)
      cases decoded : Program.decode settings bytes with
      | ok p =>
          rw [decoded] at refused
          cases refused
      | error e =>
          rw [decoded] at refused
          cases refused
          exact decode_ne_notLoaded decoded

/-- After any run, the program of a session is the empty one or that of the bytes which were loaded
last. A load that fails changes nothing, be it that the file cannot be read or that it ends before
the length which it announced, and a parse that fails leaves the bytes and no program. Taking the
program hands it out and leaves the empty one beside the bytes. Parsing says that nothing is loaded
exactly when nothing ever was. Once bytes are loaded, it answers as decoding them does, until others
are loaded. -/
theorem faithful_run
    (settings : Settings) (operations : List Operation) :
    let s := (start settings).run operations
    s.Reflects settings (lastLoaded operations) ∧
      (∀ path fault, s.load path (.error fault) = (.error (.unreadableFile path fault), s)) ∧
      (∀ path opened e, (s.loadFile path opened).1 = .error e →
        (∃ fault, e = .unreadableFile path fault) ∧ (s.loadFile path opened).2 = s) ∧
      (∀ path announced bytes, bytes.length < announced.toNat →
        (s.loadFile path (.ok ⟨announced, .ok bytes⟩)).1 =
          .error (.unreadableFile path (.endsEarly announced.toNat bytes.length))) ∧
      (∀ e, s.parse.1 = .error e → s.parse.2.result = .empty ∧ s.parse.2.bytes = s.bytes) ∧
      (s.takeResult.1 = s.result ∧ s.takeResult.2.result = .empty ∧
        s.takeResult.2.bytes = s.bytes) ∧
      (s.parse.1 = .error .notLoaded ↔ ∀ o ∈ operations, o.loaded? = none) ∧
      ∀ o bytes later, o.loaded? = some bytes → (∀ o' ∈ later, o'.loaded? = none) →
        let s' := (s.after o).run later
        s'.parse.1 = (Program.decode settings bytes).map (fun _ => ()) ∧
          ∀ p, Program.decode settings bytes = .ok p → s'.parse.2.result = p := by
  intro s
  have reflects : s.Reflects settings (lastLoaded operations) := reflects_run settings operations
  refine ⟨reflects, fun _ _ => rfl, fun path opened e => s.eq_of_loadFile_eq_error, ?_,
    fun _ => reflects.parse_failure, ⟨rfl, rfl, rfl⟩, ?_, ?_⟩
  · intro path announced bytes short
    exact congrArg Prod.fst (loadFile_of_lt short)
  · rw [reflects.parse_eq_notLoaded_iff, lastLoaded_eq_none_iff]
  · intro o bytes later loads nothing s'
    have last : lastLoaded (operations ++ [o] ++ later) = some bytes := by
      rw [lastLoaded_append_of_none nothing, lastLoaded_concat, loads, Option.some_or]
    have reflects' := reflects_run settings (operations ++ [o] ++ later)
    rw [run_append, run_append, last] at reflects'
    exact reflects'.parse_answer

end Session
end StackCode
