import TemplateStyler.Check
import TemplateStyler.Proofs.Block.Place
import TemplateStyler.Proofs.Fault

/-!
# The report on a document

A report is there unless a line number grows too large to be one. The rows of malformed directives
never do, as they are rows of the document. The rows of messages come from the checker, which may
send any size.

* `Message.toDiagnostic_eq_ok_iff`: a message becomes a problem if and only if its rows fit.
* `defects_eq`: malformed directives are always reported, each on its line.
* `document_eq_ok_iff_failures`: all that a report holds, and when there is one. Of its events it
  tells how grave they are and which blocks they are about.
* `exists_document_iff`: **a document has a report if and only if the rows of all messages fit.**
-/

namespace TemplateStyler

/-! ### Messages -/

namespace Message

/-- The rows of a message are lines of a document in which the line before the text has an index. -/
def Fits (m : Message) (lineBefore : Nat) : Prop :=
  lineBefore + m.start.row < Size.bound ∧ lineBefore + m.stop.row < Size.bound

instance (m : Message) (lineBefore : Nat) : Decidable (m.Fits lineBefore) := by
  unfold Fits; infer_instance

/-- The problem that a message tells of, for lines of any size. -/
def onDocument (m : Message) (lineBefore : Nat) : Diagnostic where
  message := m.message
  startLine := lineBefore + m.start.row
  startColumn := m.start.column - 1
  stopLine := lineBefore + m.stop.row
  stopColumn := m.stop.column - 1
  code := m.code

theorem toDiagnostic_eq_ok_iff {m : Message} {lineBefore : Nat} {d : Diagnostic} :
    m.toDiagnostic lineBefore = .ok d ↔ m.Fits lineBefore ∧ d = m.onDocument lineBefore := by
  rw [toDiagnostic, Diagnostic.shift, onDocument, Fits]
  simp only [Fault.bind_eq_ok_iff, Size.add_eq_ok, Fault.pure_eq_ok, Except.ok.injEq,
    Nat.add_comm _ lineBefore]
  constructor
  · rintro ⟨_, ⟨hstart, rfl⟩, _, ⟨hstop, rfl⟩, rfl⟩
    exact ⟨⟨hstart, hstop⟩, rfl⟩
  · rintro ⟨⟨hstart, hstop⟩, rfl⟩
    exact ⟨_, ⟨hstart, rfl⟩, _, ⟨hstop, rfl⟩, rfl⟩

theorem mapM_toDiagnostic_eq_ok_iff {ms : List Message} {lineBefore : Nat}
    {ds : List Diagnostic} :
    ms.mapM (·.toDiagnostic lineBefore) = .ok ds ↔
      (∀ m ∈ ms, m.Fits lineBefore) ∧ ds = ms.map (·.onDocument lineBefore) := by
  induction ms generalizing ds with
  | nil => simp [eq_comm]
  | cons m ms ih =>
    rw [List.mapM_cons, List.forall_mem_cons, List.map_cons]
    simp only [Fault.bind_eq_ok_iff, toDiagnostic_eq_ok_iff, ih, Fault.pure_eq_ok,
      Except.ok.injEq]
    constructor
    · rintro ⟨_, ⟨hm, rfl⟩, _, ⟨hms, rfl⟩, rfl⟩
      exact ⟨⟨hm, hms⟩, rfl⟩
    · rintro ⟨⟨hm, hms⟩, rfl⟩
      exact ⟨_, ⟨hm, rfl⟩, _, ⟨hms, rfl⟩, rfl⟩

end Message

/-- The block that an event is about, by the index of its first line, where it is about one. -/
def Event.block? : Event → Option Nat
  | .checkerNotRun block | .checkerFailed block _ | .checkerUnreadable block _ => some block
  | .formatterRejected _ | .formatterNotRun | .sentinelMismatch .. => none

/-- How grave an event is, and which block it is about. -/
def Event.outline (e : Event) : Severity × Option Nat := (e.severity, e.block?)

namespace Check

open Text

/-! ### One block -/

/-- The problem of the line at an index, where it is a malformed directive. -/
def malformed? (index : Nat) (line : Text) : Option Diagnostic :=
  (Directive.rewriteForChecker (content line)).2.map fun defect =>
    Diagnostic.onLine index defect.start defect.stop defect.message.toList

/-- The problems of the malformed directives among lines that stand from an index on. -/
def malformedFrom (index : Nat) (ls : List Text) : List Diagnostic :=
  (ls.zipIdx index).filterMap fun p => malformed? p.2 p.1

/-- The messages that are read from an answer of the checker. -/
def messages : Except ToolError Output → List Message
  | .error _ => []
  | .ok output =>
    if !output.success && output.stdout.all isSpace then []
    else (Message.readAll? output.stdout).getD []

/-- The messages of an answer that is of use: the checker ran, it did not fail without a word, and
its report can be read. -/
def usable? : Except ToolError Output → Option (List Message)
  | .error _ => none
  | .ok output =>
    if !output.success && output.stdout.all isSpace then none
    else Message.readAll? output.stdout

theorem messages_eq (answer : Except ToolError Output) :
    messages answer = (usable? answer).getD [] := by
  cases answer with
  | error => rfl
  | ok output =>
    rw [messages, usable?]
    split <;> rfl

/-- What is told of a block beside its problems: one error, if the answer is of no use. -/
def failures (b : Block) (answer : Except ToolError Output) : List (Severity × Option Nat) :=
  if (usable? answer).isNone then [(.error, some b.start)] else []

/-- The problems of a block, those that the checker does not see before those that it tells of. -/
def problems (b : Block) (answer : Except ToolError Output) : List Diagnostic :=
  malformedFrom b.firstLine b.lines ++ (messages answer).map (·.onDocument b.start)

theorem malformedFrom_cons (index : Nat) (l : Text) (ls : List Text) :
    malformedFrom index (l :: ls) =
      (malformed? index l).toList ++ malformedFrom (index + 1) ls := by
  rw [malformedFrom, List.zipIdx_cons, List.filterMap_cons]
  cases malformed? index l <;> rfl

/-- A row of a malformed directive is one of the lines, so that it is moved without a fault. -/
theorem defectsFrom_eq {firstLine row : Nat} {ls : List Text}
    (h : firstLine + row + ls.length ≤ Size.bound) :
    defectsFrom firstLine row ls = .ok (malformedFrom (firstLine + row) ls) := by
  induction ls generalizing row with
  | nil => rfl
  | cons l ls ih =>
    rw [List.length_cons] at h
    have hrow : Size.add row firstLine = .ok (firstLine + row) :=
      Size.add_eq_ok.2 ⟨by omega, Nat.add_comm _ _⟩
    rw [defectsFrom, ih (by omega), malformedFrom_cons, malformed?]
    cases (Directive.rewriteForChecker (content l)).2 with
    | none => rfl
    | some defect =>
      simp only [Diagnostic.shift, Diagnostic.onLine, hrow, Fault.ok_bind, Fault.pure_eq_ok]
      rfl

theorem defects_eq {b : Block} (h : b.firstLine + b.lines.length ≤ Size.bound) :
    defects b = .ok (malformedFrom b.firstLine b.lines) := defectsFrom_eq h

theorem findings_eq_ok_iff (b : Block) (answer : Except ToolError Output) :
    ∃ events, events.map Event.outline = failures b answer ∧
      ∀ found, findings b answer = .ok found ↔
        (∀ m ∈ messages answer, m.Fits b.start) ∧
          found = ((messages answer).map (·.onDocument b.start), events) := by
  cases answer with
  | error e =>
    exact ⟨[.checkerNotRun b.start], rfl, fun found => by simp [findings, messages, eq_comm]⟩
  | ok output =>
    rw [messages, failures, usable?]
    simp only [findings]
    split
    · exact ⟨[.checkerFailed b.start (trim output.stderr)], rfl, fun found => by simp [eq_comm]⟩
    · cases Message.readAll? output.stdout with
      | none =>
        exact ⟨[.checkerUnreadable b.start (trim output.stderr)], rfl,
          fun found => by simp [eq_comm]⟩
      | some ms =>
        refine ⟨[], rfl, fun found => ?_⟩
        simp only [Fault.bind_eq_ok_iff, Message.mapM_toDiagnostic_eq_ok_iff, Fault.pure_eq_ok,
          Except.ok.injEq, Option.getD_some]
        constructor
        · rintro ⟨_, ⟨hfits, rfl⟩, rfl⟩
          exact ⟨hfits, rfl⟩
        · rintro ⟨hfits, rfl⟩
          exact ⟨_, ⟨hfits, rfl⟩, rfl⟩

theorem block_eq_ok_iff (checker : Tool) (calls : Nat) {b : Block}
    (h : b.firstLine + b.lines.length ≤ Size.bound) :
    ∃ events, events.map Event.outline = failures b (checker calls (source b)) ∧
      ∀ report, block checker calls b = .ok report ↔
        (∀ m ∈ messages (checker calls (source b)), m.Fits b.start) ∧
          report = ⟨problems b (checker calls (source b)), [source b], events⟩ := by
  obtain ⟨events, hevents, hfindings⟩ := findings_eq_ok_iff b (checker calls (source b))
  refine ⟨events, hevents, fun report => ?_⟩
  rw [block, defects_eq h]
  simp only [Fault.ok_bind, Fault.bind_eq_ok_iff, hfindings, Fault.pure_eq_ok, Except.ok.injEq]
  constructor
  · rintro ⟨_, ⟨hfits, rfl⟩, rfl⟩
    exact ⟨hfits, rfl⟩
  · rintro ⟨hfits, rfl⟩
    exact ⟨_, ⟨hfits, rfl⟩, rfl⟩

/-! ### All blocks -/

theorem blocksFrom_eq_ok_iff (checker : Tool) (calls : Nat) {bs : List Block}
    (h : ∀ b ∈ bs, b.firstLine + b.lines.length ≤ Size.bound) :
    ∃ events, (events.map Event.outline =
        (bs.zipIdx calls).flatMap fun p => failures p.1 (checker p.2 (source p.1))) ∧
      ∀ report, blocksFrom checker calls bs = .ok report ↔
        (∀ p ∈ bs.zipIdx calls, ∀ m ∈ messages (checker p.2 (source p.1)), m.Fits p.1.start) ∧
          report = ⟨(bs.zipIdx calls).flatMap fun p => problems p.1 (checker p.2 (source p.1)),
            bs.map source, events⟩ := by
  induction bs generalizing calls with
  | nil => exact ⟨[], rfl, fun report => by simp [blocksFrom, eq_comm]⟩
  | cons b bs ih =>
    obtain ⟨hb, hbs⟩ := List.forall_mem_cons.1 h
    obtain ⟨events, hevents, hfirst⟩ := block_eq_ok_iff checker calls hb
    obtain ⟨events', hevents', hrest⟩ := ih (calls + 1) hbs
    refine ⟨events ++ events', ?_, fun report => ?_⟩
    · rw [List.map_append, hevents, hevents', List.zipIdx_cons, List.flatMap_cons]
    rw [blocksFrom, List.zipIdx_cons, List.forall_mem_cons, List.flatMap_cons, List.map_cons]
    simp only [Fault.bind_eq_ok_iff, hfirst, hrest, Fault.pure_eq_ok, Except.ok.injEq]
    constructor
    · rintro ⟨_, ⟨hfits, rfl⟩, _, ⟨hfits', rfl⟩, rfl⟩
      exact ⟨⟨hfits, hfits'⟩, rfl⟩
    · rintro ⟨⟨hfits, hfits'⟩, rfl⟩
      exact ⟨_, ⟨hfits, rfl⟩, _, ⟨hfits', rfl⟩, rfl⟩

/-- The problems of the blocks of a document, block by block. -/
def allProblems (checker : Tool) (document : Text) : List Diagnostic :=
  (Block.extract document).zipIdx.flatMap fun p => problems p.1 (checker p.2 (source p.1))

/-- What is told of the blocks of a document beside their problems, block by block. -/
def allFailures (checker : Tool) (document : Text) : List (Severity × Option Nat) :=
  (Block.extract document).zipIdx.flatMap fun p => failures p.1 (checker p.2 (source p.1))

variable {checker : Tool} {document : Text}

/-- **All that a report holds**, and when there is one. -/
theorem document_eq_ok_iff_failures (checker : Tool) (hfit : byteSize document < Size.bound) :
    ∃ events, events.map Event.outline = allFailures checker document ∧
      ∀ report, Check.document checker document = .ok report ↔
        (∀ i b, (Block.extract document)[i]? = some b →
          ∀ m ∈ messages (checker i (source b)), m.Fits b.start) ∧
        report = ⟨Diagnostic.inOrder (allProblems checker document),
          (Block.extract document).map source, events⟩ := by
  have hlines : ∀ b ∈ Block.extract document, b.firstLine + b.lines.length ≤ Size.bound :=
    fun b hb => Nat.le_of_lt (Nat.lt_trans (Block.firstLine_add_length_lt hb) hfit)
  obtain ⟨events, hevents, hblocks⟩ := blocksFrom_eq_ok_iff checker 0 hlines
  have hindex : (∀ p ∈ (Block.extract document).zipIdx,
      ∀ m ∈ messages (checker p.2 (source p.1)), m.Fits p.1.start) ↔
        ∀ i b, (Block.extract document)[i]? = some b →
          ∀ m ∈ messages (checker i (source b)), m.Fits b.start := by
    simp only [Prod.forall, List.mk_mem_zipIdx_iff_getElem?]
    exact forall_comm
  refine ⟨events, hevents, fun report => ?_⟩
  rw [Check.document, ← hindex]
  simp only [Fault.bind_eq_ok_iff, hblocks, Fault.pure_eq_ok, Except.ok.injEq]
  constructor
  · rintro ⟨_, ⟨hfits, rfl⟩, rfl⟩
    exact ⟨hfits, rfl⟩
  · rintro ⟨hfits, rfl⟩
    exact ⟨_, ⟨hfits, rfl⟩, rfl⟩

theorem document_eq_ok_iff (checker : Tool) (hfit : byteSize document < Size.bound) :
    ∃ events, ∀ report, Check.document checker document = .ok report ↔
      (∀ i b, (Block.extract document)[i]? = some b →
        ∀ m ∈ messages (checker i (source b)), m.Fits b.start) ∧
      report = ⟨Diagnostic.inOrder (allProblems checker document),
        (Block.extract document).map source, events⟩ :=
  (document_eq_ok_iff_failures checker hfit).imp fun _ h => h.2

/-- **A document has a report if and only if the rows of all messages fit.** Nothing else that a
checker does or sends, and no malformed directive, is in the way of it. -/
theorem exists_document_iff (hfit : byteSize document < Size.bound) :
    (∃ report, Check.document checker document = .ok report) ↔
      ∀ i b, (Block.extract document)[i]? = some b →
        ∀ m ∈ messages (checker i (source b)), m.Fits b.start := by
  obtain ⟨events, hreport⟩ := document_eq_ok_iff checker hfit
  simp only [hreport, exists_and_left, exists_eq, and_true]

/-- The checker that sends one message on a row, whatever it is given. -/
def onRow (row : Nat) : Tool :=
  fun _ _ => .ok ⟨true, ("[[null,\"m\",[" ++ toString row ++ ",1],[" ++ toString row ++
    ",1]]]").toList, []⟩

/-- A message on the last row that fits, and a malformed directive. -/
theorem exists_document_iff_last_row :
    byteSize "a\n....\nlet a\n....\n".toList < Size.bound ∧
      (messages (onRow 18446744073709551614 0 "pass\n".toList)).length = 1 ∧
      ∃ report, Check.document (onRow 18446744073709551614) "a\n....\nlet a\n....\n".toList =
        .ok report := by
  have hextract : Block.extract "a\n....\nlet a\n....\n".toList = [⟨1, 3, ["let a\n".toList]⟩] := by
    decide
  refine ⟨by decide, by decide +kernel, (exists_document_iff (by decide)).2 fun i b hb => ?_⟩
  rw [hextract] at hb
  match i with
  | 0 =>
    cases Option.some.inj hb
    decide +kernel
  | i + 1 => exact absurd hb (by simp)

/-- **A document without a report.** The message is on the row behind the last one that fits. -/
theorem document_eq_error :
    ∃ (checker : Tool) (document : Text), byteSize document < Size.bound ∧
      Check.document checker document = .error .tooLarge :=
  ⟨onRow 18446744073709551615, "a\n....\nx\n....\n".toList, by decide, by decide +kernel⟩

end Check

end TemplateStyler
