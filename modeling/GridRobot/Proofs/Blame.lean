import GridRobot.Proofs.Divergence
import GridRobot.Proofs.Grammar.Relining
import GridRobot.Proofs.Scanning
import GridRobot.Proofs.Segmentation

/-!
# Reports point into their source

Whatever is wrong with a program text, the report names a line of the text, and the lines around it
can be shown with this one marked. A fault takes its line from a token, from the end of the text or
from the character that starts no token. A program that fails while it runs blames the line of an
instruction, which the instruction has from a token.

The scanner counts lines by itself, and the text is cut into lines for the report by another
function. Both count line feeds.
-/

namespace GridRobot

/-! ## Excerpts -/

/-- Whether a source line is shown with a mark in front. -/
def ExcerptLine.pointed (shown : ExcerptLine) : Bool :=
  shown.render.toList.head? == some '>'

theorem ExcerptLine.pointed_eq_marked (shown : ExcerptLine) : shown.pointed = shown.marked := by
  obtain ⟨number, marked, text⟩ := shown
  cases marked <;> simp [pointed, render]

/-- The numbers of a range that lie between two bounds are a range. -/
theorem filter_range' (start count low high : Nat) :
    (List.range' start count).filter (fun number => low ≤ number ∧ number ≤ high) =
      List.range' (max start low) (min (start + count) (high + 1) - max start low) := by
  induction count generalizing start with
  | zero => simp
  | succ count ih =>
      rw [List.range'_succ, List.filter_cons, ih]
      split
      · next inside =>
          have bounds : low ≤ start ∧ start ≤ high := by simpa using inside
          have more : min (start + (count + 1)) (high + 1) - start =
              min (start + 1 + count) (high + 1) - (start + 1) + 1 := by
            omega
          rw [max_eq_left bounds.1, max_eq_left (Nat.le_succ_of_le bounds.1), more,
            List.range'_succ]
      · next outside =>
          have bounds : start < low ∨ high < start := by
            simp only [decide_eq_true_eq] at outside
            omega
          rcases bounds with early | late
          · rw [max_eq_right early, max_eq_right (Nat.le_of_lt early)]
            congr 2
            omega
          · have none : min (start + 1 + count) (high + 1) - max (start + 1) low = 0 := by omega
            have noneMore : min (start + (count + 1)) (high + 1) - max start low = 0 := by omega
            rw [none, noneMore, List.range'_zero, List.range'_zero]

section Excerpts

variable {lines : List (List Char)} {line : Nat}

/-- Around a line of a text, the lines of the text with a distance of at most two are shown. -/
theorem excerpt_eq (positive : 1 ≤ line) :
    excerpt lines line = (lines.zipIdx 1).filterMap fun (text, number) =>
      if line - 2 ≤ number ∧ number ≤ line + 2 then some ⟨number, number = line, text⟩
      else none := by
  have centre : max 1 (line : Int) = line := by omega
  have near (number : Nat) : ((line : Int) - 2 ≤ number ∧ (number : Int) ≤ line + 2) ↔
      (line - 2 ≤ number ∧ number ≤ line + 2) := by
    omega
  simp only [excerpt, centre, near, Int.natCast_inj]

theorem numbers_excerpt (positive : 1 ≤ line) :
    (excerpt lines line).map ExcerptLine.number =
      List.range' (max 1 (line - 2)) (min lines.length (line + 2) + 1 - max 1 (line - 2)) := by
  have last : min (1 + lines.length) (line + 2 + 1) = min lines.length (line + 2) + 1 := by omega
  calc
    _ = (lines.zipIdx 1).filterMap
        (Option.guard (fun number => line - 2 ≤ number ∧ number ≤ line + 2) ∘ Prod.snd) := by
      rw [excerpt_eq positive, List.map_filterMap]
      congr 1
      funext entry
      dsimp only [Function.comp, Option.guard]
      split <;> simp_all
    _ = (List.range' 1 lines.length).filter
        (fun number => line - 2 ≤ number ∧ number ≤ line + 2) := by
      rw [← List.filterMap_map, List.zipIdx_map_snd, List.filterMap_eq_filter]
    _ = _ := by rw [filter_range', last]

theorem text_of_mem_excerpt {shown : ExcerptLine} (among : shown ∈ excerpt lines line) :
    1 ≤ shown.number ∧ lines[shown.number - 1]? = some shown.text := by
  obtain ⟨⟨text, number⟩, entry, found⟩ := List.mem_filterMap.mp among
  dsimp only at found
  split at found
  · cases found
    exact List.mk_mem_zipIdx_iff_le_and_getElem?_sub.mp entry
  · cases found

/-- Each line of a text has its number once. -/
theorem filterMap_zipIdx {text : List Char} {start : Nat} (low : start ≤ line)
    (there : lines[line - start]? = some text) :
    (lines.zipIdx start).filterMap
        (fun entry => if entry.2 = line then some (⟨line, true, entry.1⟩ : ExcerptLine) else none) =
      [⟨line, true, text⟩] := by
  induction lines generalizing start with
  | nil => cases there
  | cons first rest ih =>
      rw [List.zipIdx_cons, List.filterMap_cons]
      rcases Nat.eq_or_lt_of_le low with rfl | before
      · rw [Nat.sub_self] at there
        cases there
        have later : (rest.zipIdx (start + 1)).filterMap
            (fun entry => if entry.2 = start then some (⟨start, true, entry.1⟩ : ExcerptLine)
              else none) = [] := by
          rw [List.filterMap_eq_nil_iff]
          intro entry among
          have above := (List.mem_zipIdx_iff_le_and_getElem?_sub.mp among).1
          exact if_neg (by omega)
        simp only [if_true, later]
      · have further : line - start = line - (start + 1) + 1 := by omega
        rw [further, List.getElem?_cons_succ] at there
        simp only [Nat.ne_of_lt before, if_false]
        exact ih before there

theorem pointed_excerpt (positive : 1 ≤ line) {text : List Char}
    (there : lines[line - 1]? = some text) :
    (excerpt lines line).filter ExcerptLine.pointed = [⟨line, true, text⟩] := by
  rw [← filterMap_zipIdx positive there, funext ExcerptLine.pointed_eq_marked, excerpt_eq positive,
    List.filter_filterMap]
  congr 1
  funext entry
  dsimp only
  by_cases here : entry.2 = line
  · rw [if_pos (by omega), if_pos here]
    simp [here, Option.filter]
  · rw [if_neg here]
    split <;> simp [here, Option.filter]

end Excerpts

/-- Whether a report names a line of a source, so that the lines around it can be shown: those at a
distance of at most two, with their own numbers and texts, and only the line of the report with a
mark. -/
def Report.PointsInto (source : String) (report : Report) : Prop :=
  let lines := Text.lines source.toList
  ∃ (line : Nat) (text : List Char), report.line = some (line : Int) ∧
    1 ≤ line ∧ line ≤ 1 + source.toList.count '\n' ∧ lines[line - 1]? = some text ∧
    (excerpt lines line).map ExcerptLine.number =
      List.range' (max 1 (line - 2)) (min lines.length (line + 2) + 1 - max 1 (line - 2)) ∧
    (∀ shown ∈ excerpt lines line,
      1 ≤ shown.number ∧ lines[shown.number - 1]? = some shown.text) ∧
    (excerpt lines line).filter ExcerptLine.pointed = [⟨line, true, text⟩]

/-- Whether a text has a line with a given number. -/
def Text.HasLine (text : List Char) (line : Nat) : Prop :=
  1 ≤ line ∧ line ≤ 1 + text.count '\n'

theorem Report.pointsInto {source : String} {report : Report} {line : Nat}
    (blamed : report.line = some (line : Int)) (has : Text.HasLine source.toList line) :
    report.PointsInto source := by
  obtain ⟨positive, bound⟩ := has
  have inside : line - 1 < (Text.lines source.toList).length := by
    rw [Text.length_lines]
    omega
  have there := List.getElem?_eq_getElem inside
  exact ⟨line, _, blamed, positive, bound, there, numbers_excerpt positive,
    fun _ => text_of_mem_excerpt, pointed_excerpt positive there⟩

/-! ## Faults of program text -/

theorem Text.hasLine_of_append {text before after : List Char} (parted : text = before ++ after) :
    HasLine text (1 + before.count '\n') := by
  rw [HasLine, parted, List.count_append]
  omega

theorem TokenList.hasLine_of_mem_lines {source : String} {list : TokenList}
    (scanned : ofText source = .ok list) {line : Nat} (among : line ∈ list.lines) :
    Text.HasLine source.toList line := by
  rcases List.mem_cons.mp among with rfl | tokenLine
  · have segments : Segments [] source.toList list := segments_of_scan scanned
    rw [segments.stop_eq, Position.behind, Nat.add_comm]
    exact Text.hasLine_of_append (List.append_nil _).symm
  · obtain ⟨token, tokenAmong, rfl⟩ := List.mem_map.mp tokenLine
    obtain ⟨before, after, parted, line, -⟩ := standsIn_scan scanned token tokenAmong
    rw [line]
    exact Text.hasLine_of_append parted

theorem LexicalFault.hasLine {source : String} {fault : LexicalFault}
    (refused : TokenList.ofText source = .error fault) :
    Text.HasLine source.toList fault.line := by
  have start : TokenList.ofText source = TokenList.scan 0 (.behind []) source.toList := rfl
  obtain ⟨front, rest, parted, -, -, line⟩ := TokenList.stopsIn_of_scan (start ▸ refused)
  rw [line, List.nil_append, Nat.add_comm]
  exact Text.hasLine_of_append parted

theorem GrammarCause.category_mem (cause : GrammarCause) :
    cause.category ∈ [Category.lexical, .grammar, .meaning] := by
  cases cause <;> simp [category]

namespace Source

variable {stack : Stack} {source : String}

theorem exists_report_of_textProgram {fault : SourceFault}
    (refused : textProgram stack source = .error fault) :
    ∃ report, fault.report? = some report ∧
      report.category ∈ [Category.lexical, .grammar, .meaning] ∧ report.PointsInto source := by
  unfold textProgram at refused
  split at refused
  · next lexical scanned =>
      cases refused
      exact ⟨lexical.report, rfl, by simp [LexicalFault.report],
        Report.pointsInto rfl (LexicalFault.hasLine scanned)⟩
  · next tokens scanned =>
      split at refused
      · next grammar failed =>
          cases refused
          have line := (Parse.boundedFile_carriesLines stack.text).line_mem failed
          exact ⟨grammar.report, rfl, grammar.cause.category_mem,
            Report.pointsInto rfl (TokenList.hasLine_of_mem_lines scanned line)⟩
      · cases refused

/-- Every instruction of the program of a text has a line of the text. -/
theorem exists_line_of_mem_code {program : List Stmt} {code : List Instr}
    (read : textProgram stack source = .ok program) (compiled : Code.compile program = .ok code)
    {instr : Instr} (among : instr ∈ code) :
    ∃ line : Nat, (line : Int) = instr.line ∧ Text.HasLine source.toList line := by
  obtain ⟨tokens, file, scanned, -, readFile, rfl⟩ := exists_file_of_textProgram read
  rw [Code.compile_of_known (proper_textProgram read).known] at compiled
  cases compiled
  obtain ⟨line, kept, same⟩ := Parse.file_carriesLines.exists_line_of_mem_assemble readFile among
  exact ⟨line, same, TokenList.hasLine_of_mem_lines scanned kept⟩

end Source

/-! ## Failures of a session -/

/-- Whether a failure has a report, and blames the line of one of the given instructions. -/
def Failure.Blames (code : List Instr) (failure : Failure) : Prop :=
  ∃ report instr, failure.report? = some report ∧ instr ∈ code ∧ report.line = some instr.line

namespace Session

variable {session : Session} {initial : State} {limit : Int} {code : List Instr}
  {failure : Failure}

/-- A machine that is not done blames the instruction at its place. -/
theorem blames_of_running (within : Code.Within code.length code) {steps : Nat}
    (running : (replay code initial steps).machine.done = false)
    (line : failure.line = (replay code initial steps).machine.currentLine?)
    (classified : failure.fault.classification?.isNone = false) : failure.Blames code := by
  obtain ⟨instr, fetched, among⟩ := (inRange_replay within steps).fetch running
  rw [replay_code] at among
  have current : failure.line = some instr.line := by
    rw [line, Machine.currentLine?, if_neg (by simp [running]), fetched]
    rfl
  cases kind : failure.fault.classification? with
  | none =>
      rw [kind] at classified
      cases classified
  | some entry =>
      have shown : failure.report? =
          some ⟨entry.1, entry.2, failure.fault.message, failure.line⟩ := by
        rw [Failure.report?, kind]
        rfl
      exact ⟨_, instr, shown, among, current⟩

theorem Replays.blames_of_step (replays : session.Replays initial limit code)
    (known : Code.Known code) (within : Code.Within code.length code)
    (failed : session.step.outcome = .error failure) : failure.Blames code := by
  cases unhalted : session.halt with
  | some earlier =>
      rw [step_of_halted unhalted] at failed
      cases failed
  | none =>
      cases running : (replay code initial session.executed).machine.done with
      | true =>
          rw [step_of_done replays.machine unhalted running] at failed
          cases failed
      | false =>
          rcases Int.lt_or_le session.executed limit with left | spent
          · cases outcome : ((replay code initial session.executed).machine.step
                (replay code initial session.executed).state).outcome with
            | ok ran =>
                rw [replays.step_ok unhalted running left outcome] at failed
                cases failed
            | error fault =>
                have ofWorld := Machine.step_ofWorld (by rwa [replay_code]) outcome
                rw [replays.step_error unhalted running left outcome ofWorld] at failed
                cases failed
                apply blames_of_running within running _ ofWorld.classified
                rw [replay, Stage.next_machine, (Machine.step_error outcome).1]
          · rw [step_of_limit replays.machine unhalted running
              (by rw [replays.sameLimit]; exact spent)] at failed
            cases failed
            exact blames_of_running within running rfl rfl

theorem Replays.blames_of_runFor (replays : session.Replays initial limit code)
    (known : Code.Known code) (within : Code.Within code.length code) {steps : Nat}
    (failed : (session.runFor steps).failure = some failure) : failure.Blames code := by
  induction steps generalizing session with
  | zero => cases failed
  | succ steps ih =>
      unfold Session.runFor at failed
      split at failed
      · cases failed
      · dsimp only at failed
        split at failed
        · next stopped =>
            cases failed
            exact replays.blames_of_step known within stopped
        · exact ih (replays.step known) failed

end Session

/-- Without another load, a session keeps its instructions. -/
theorem Call.foldl_code? {stack : Stack} {calls : List Call} {code : List Instr}
    (unloaded : ∀ source, Call.load source ∉ calls) :
    calls.foldl (Call.code? stack) (some code) = some code := by
  induction calls with
  | nil => rfl
  | cons call rest ih =>
      have others := ih fun source among => unloaded source (List.mem_cons_of_mem call among)
      cases call with
      | load source => exact (unloaded source List.mem_cons_self).elim
      | _ => exact others

/-- A session that has loaded a program text blames lines of this text. -/
theorem Session.pointsInto_of_run {stack : Stack} {source : String} {session loaded : Session}
    (text : Source.isDocument source = false) (load : session.load stack source = .ok loaded)
    {calls : List Call} (unloaded : ∀ source, Call.load source ∉ calls) {failure : Failure}
    (failed : (loaded.afterAll stack calls).run.failure = some failure) :
    ∃ report, failure.report? = some report ∧ report.PointsInto source := by
  obtain ⟨code, valid, returned⟩ := ok_of_bind_ok load
  cases returned
  obtain ⟨program, read, -, compiled⟩ := compileSource_eq_ok_iff.mp valid
  have known := Source.known_program read
  have knownCode := Code.known_compile known compiled
  have tracks : (reset { session with code }).Tracks session.initial session.limit (some code) :=
    ⟨knownCode, Replays.reset rfl rfl⟩
  have later := tracks.afterAll stack calls
  rw [Call.foldl_code? unloaded] at later
  obtain ⟨report, instr, shown, among, blamed⟩ :=
    later.2.blames_of_runFor knownCode (Code.within_compile known compiled) failed
  have readText : Source.textProgram stack source = .ok program := by
    rw [Source.program, if_neg (by simp [text])] at read
    exact read
  obtain ⟨line, same, has⟩ := Source.exists_line_of_mem_code readText compiled among
  exact ⟨report, shown, Report.pointsInto (same ▸ blamed) has⟩

/-! ## Rejections -/

/-- The rejections of a program text point into it. Every fault that keeps it from being read, on
whatever stack, and every failure of a session that has loaded it, has a report that names one of
its lines, and around this line up to two lines on each side are shown, with a mark in front of this
one only. -/
theorem Source.rejections_point_into_source {source : String}
    (text : isDocument source = false) :
    (∀ stack fault, program stack source = .error fault →
      ∃ report, fault.report? = some report ∧
        report.category ∈ [Category.lexical, .grammar, .meaning] ∧ report.PointsInto source) ∧
    (∀ tokens fault, TokenList.ofText source = .ok tokens →
      (Parse.file tokens).outcome = .error fault → fault.report.PointsInto source) ∧
    ∀ (stack : Stack) (session loaded : Session) (calls : List Call) (failure : Failure),
      session.load stack source = .ok loaded → (∀ other, Call.load other ∉ calls) →
        (loaded.afterAll stack calls).run.failure = some failure →
          ∃ report, failure.report? = some report ∧ report.PointsInto source := by
  refine ⟨?_, ?_, ?_⟩
  · intro stack fault refused
    rw [program, if_neg (by simp [text])] at refused
    exact exists_report_of_textProgram refused
  · intro tokens fault scanned failed
    have line := Parse.file_carriesLines.line_mem failed
    exact Report.pointsInto rfl (TokenList.hasLine_of_mem_lines scanned line)
  · intro stack session loaded calls failure load unloaded failed
    exact Session.pointsInto_of_run text load unloaded failed

/-- A loop that is not closed. -/
def openSource : String :=
  "program main \x7b\n" ++
  "  forward\n" ++
  "  while !won \x7b\n" ++
  "    turnLeft\n" ++
  "\n" ++
  "active main."

/-- A program that picks where there is nothing, on its third line. -/
def pickSource : String :=
  "program main \x7b\n" ++
  "  forward // to the next cell\n" ++
  "  pick\n" ++
  "\x7d\n" ++
  "active main."

theorem Source.rejections_point_into_source_open :
    (∃ fault report, program .usual openSource = .error fault ∧ fault.report? = some report ∧
      report.line = some 3 ∧ report.PointsInto openSource) ∧
    ∃ (session loaded : Session) (failure : Failure) (report : Report),
      session.load .usual pickSource = .ok loaded ∧
        (loaded.afterAll .usual [.step, .stepBack]).run.failure = some failure ∧
          failure.report? = some report ∧ report.line = some 3 ∧ report.PointsInto pickSource := by
  constructor
  · have text : isDocument openSource = false := by decide +kernel
    have blamed : ((program .usual openSource).mapError fun fault =>
        fault.report?.bind Report.line).map List.length = .error (some 3) := by
      decide +kernel
    cases refused : program .usual openSource with
    | ok program =>
        rw [refused] at blamed
        cases blamed
    | error fault =>
        obtain ⟨report, shown, -, points⟩ :=
          (rejections_point_into_source text).1 .usual fault refused
        rw [refused, Except.mapError, shown] at blamed
        exact ⟨fault, report, rfl, shown, Except.error.inj blamed, points⟩
  · have text : isDocument pickSource = false := by decide +kernel
    let initial : State := { world := { width := 3, height := 3 }, robot := { cell := ⟨0, 2⟩ } }
    have failing : (((Session.start initial 10).load .usual pickSource).toOption.bind fun loaded =>
        (loaded.afterAll .usual [.step, .stepBack]).run.failure) =
          some ⟨.noBeeperHere, some 3⟩ := by
      decide +kernel
    cases load : (Session.start initial 10).load .usual pickSource with
    | error fault =>
        rw [load] at failing
        cases failing
    | ok loaded =>
        rw [load] at failing
        have unloaded (other : String) : Call.load other ∉ [Call.step, .stepBack] := by simp
        obtain ⟨report, shown, points⟩ :=
          (rejections_point_into_source text).2.2 _ _ loaded _ _ load unloaded failing
        cases shown
        exact ⟨_, loaded, _, _, load, failing, rfl, rfl, points⟩

end GridRobot
