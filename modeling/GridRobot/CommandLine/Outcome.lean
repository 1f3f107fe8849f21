import GridRobot.CommandLine.Invocation
import GridRobot.Program.Outline
import GridRobot.Session
import GridRobot.Settings.File
import GridRobot.Settings.Plan
import GridRobot.World.Picture

/-!
# What an invocation prints

Every command is a function from the files it reads to what it prints and the status it ends with.
How files are looked up is a parameter, so the same functions work on any store of files.
-/

namespace GridRobot.CommandLine

/-- A failure that the program does not report in words of its own. -/
inductive Escape where
  | file (fault : FileFault)
  | code (fault : Fault)
  | settings (fault : Settings.Fault)
  | tooDeep

/-- The wording of a failure that the program does not report itself. -/
def Escape.message : Escape → Text
  | .file fault => fault.message
  | .code fault => fault.message
  | .settings fault => fault.message
  | .tooDeep => "nested too deeply"

/-- How an invocation ends. -/
inductive Ending where
  | exit (status : Nat)
  | escape (cause : Escape)

/-- What an invocation prints, and how it ends. -/
structure Outcome where
  output : String := ""
  errors : Text := ""
  ending : Ending := .exit 0

/-- What a command on the text of a program prints, notes and complains about, and how it ends. -/
structure Account where
  output : String := ""
  records : List Log.Record := []
  complaint : Text := ""
  ending : Ending := .exit 0

/-- Lines of output. -/
def unlines (lines : List String) : String :=
  String.join (lines.map (· ++ "\n"))

/-- An account that ends with status one and a complaint. -/
def Account.complain (account : Account) (text : Text) : Account :=
  { account with complaint := text ++ "\n", ending := .exit 1 }

/-- An account on a failure that has a description. -/
def Account.describe (account : Account) (cause : Report) (source : String) : Account :=
  account.complain (cause.render (some source))

/-- An account on a source that has no program. -/
def Account.reject (account : Account) (fault : SourceFault) (source : String) : Account :=
  match fault.report? with
  | some report => account.describe report source
  | none => account.complain ("Error: " ++ fault.message)

/-- An account that ends with a failure of another kind. -/
def Account.escape (account : Account) (cause : Escape) : Account :=
  { account with ending := .escape cause }

/-- An account on a source that has no instructions. -/
def Account.withhold (account : Account) (fault : Session.LoadFault) (source : String) : Account :=
  match fault with
  | .source fault => account.reject fault source
  | .code fault => account.escape (.code fault)
  | .nestedTooDeeply => account.escape .tooDeep

/-- The line for a token. -/
def tokenLine (position : Position) (kind text : String) : String :=
  Text.alignRight 4 (toString position.line) ++ ":" ++
    Text.alignLeft 3 (toString position.column) ++ " " ++ Text.alignLeft 12 kind ++ " " ++
    Text.quoted text

/-- Prints the tokens of a program. -/
def tokensAccount (source : String) : Account :=
  match TokenList.ofText source with
  | .error fault => ({} : Account).describe fault.report source
  | .ok list =>
      let lines := list.tokens.map fun token =>
        tokenLine token.position token.lexeme.kindName token.lexeme.text
      { output := unlines (lines ++ [tokenLine list.stop "EOF" ""])
        records := [Source.scanRecord list] }

/-- Prints the outline of a program. -/
def checkAccount (source : String) : Account :=
  let started : Account := { records := Source.records .usual source }
  match Source.program .usual source with
  | .error fault => started.reject fault source
  | .ok program => { started with output := unlines [Stmt.outline program] }

/-- Prints the instructions of a program. -/
def dumpAccount (source : String) : Account :=
  let started : Account := { records := Session.loadRecords .usual source }
  match Session.compileSource .usual source with
  | .error fault => started.withhold fault source
  | .ok code => { started with output := unlines [Code.listing code] }

/-- Whether a setting counts as yes. -/
def isYes (value : Json) : Bool :=
  !value.isBare

/-- The line that a step prints. -/
def stepLine (line : Option Int) (state : State) : String :=
  let shown :=
    match line with
    | some number => toString number
    | none => "None"
  "line " ++ shown ++ ": robot at (" ++ toString state.robot.cell.x ++ ", " ++
    toString state.robot.cell.y ++ ") facing " ++ state.robot.facing.letter ++ ", steps " ++
    toString state.steps

/-- The lines of the steps of a session, at most a given number, and how it ends. -/
def stepLines : (steps : Nat) → Session → List String × Session.Finished
  | 0, session => ([], ⟨session, none⟩)
  | steps + 1, session =>
      if session.done then ([], ⟨session, none⟩)
      else
        let stepped := session.step
        match stepped.outcome with
        | .error failure => ([], ⟨stepped.session, some failure⟩)
        | .ok result =>
            let (lines, finished) := stepLines steps stepped.session
            (stepLine (result.map fun executed => executed.instr.line) stepped.session.state ::
              lines, finished)

/-- The last line of a run. -/
def verdict (state : State) : String :=
  if state.won then "Won after " ++ toString state.steps ++ " step(s)"
  else
    "Program finished without reaching the win row (" ++ toString state.steps ++ " step(s))"

/-- An account on settings that cannot be used. Only a bad value is reported in words. -/
def Account.refuse (account : Account) (fault : Settings.Fault) : Account :=
  if fault.isValue then account.complain ("Error: " ++ fault.message)
  else account.escape (.settings fault)

/-- Runs a loaded session. -/
def sessionAccount (started : Account) (settings : Settings) (session : Session)
    (source : String) : Account :=
  let (lines, finished) :=
    if isYes settings.trace then
      let (lines, finished) := stepLines session.stepsLeft session
      (session.state.picture :: lines, finished)
    else ([], session.run)
  let ran : Account :=
    { started with
      output := unlines lines
      records := started.records ++ session.runRecords session.stepsLeft }
  match finished.failure with
  | none =>
      let state := finished.session.state
      { ran with output := unlines (lines ++ [state.picture, verdict state]) }
  | some failure =>
      match settings.report? failure with
      | .error fault => ran.refuse fault
      | .ok none => ran.escape (.code failure.fault)
      | .ok (some report) =>
          let halted := { ran with records := ran.records ++ [Session.haltRecord report] }
          halted.describe report source

/-- Runs a program with given settings. -/
def settingsAccount (records : List Log.Record) (settings : Settings) (source : String) :
    Account :=
  let started : Account := { records }
  match settings.plan with
  | .error fault => started.refuse fault
  | .ok plan =>
      let limits := settings.limits plan source
      match Level.Plan.build { plan with maxSteps := limits.steps } with
      | .error grid => started.complain ("Error: " ++ grid.message)
      | .ok state =>
          let loading : Account :=
            { started with
              records := records ++ plan.records ++ Session.loadRecords .usual source }
          match (Session.start state limits.instructions).load .usual source with
          | .error fault => loading.withhold fault source
          | .ok session => sessionAccount loading settings session source

/-- The account when settings cannot be loaded. A file that cannot be opened, or whose data are
nested too deeply, is not reported in words. -/
def loadFaultAccount (fault : Settings.LoadFault) : Account :=
  let started : Account := {}
  match fault with
  | .file (.undecodable cause) => started.complain ("Error: " ++ cause.message)
  | .file .nullInPath => started.complain ("Error: " ++ fault.message)
  | .file cause => started.escape (.file cause)
  | .data ⟨.depth, _⟩ _ => started.escape .tooDeep
  | other => started.complain ("Error: " ++ other.message)

variable {m : Type → Type} [Monad m]

/-- Carries out a command on the text of a program. -/
def Task.account (lookUp : String → m FileEntry) (task : Task) (source : String) : m Account :=
  match task with
  | .tokens => pure (tokensAccount source)
  | .check => pure (checkAccount source)
  | .dump => pure (dumpAccount source)
  | .run config changes => do
      match ← Settings.load lookUp config with
      | .error fault => return loadFaultAccount fault
      | .ok loaded =>
          return settingsAccount loaded.records (loaded.settings.override changes) source

/-- What is printed for an account. What was noted comes before the complaint. -/
def Account.outcome (verbose : Bool) (account : Account) : Outcome :=
  let noted : List Text := (account.records.filter (Log.Record.shown verbose)).map fun record =>
    record.render ++ "\n"
  { output := account.output
    errors := Text.join noted ++ account.complaint
    ending := account.ending }

/-- Carries out a command. -/
def Command.outcome (lookUp : String → m FileEntry) (verbose : Bool) (command : Command) :
    m Outcome := do
  let entry ← lookUp command.file
  match entry.text command.file .utf8 with
  | .error (.missing path) =>
      return { errors := "Error: File '" ++ path ++ "' not found\n", ending := .exit 1 }
  | .error fault => return { ending := .escape (.file fault) }
  | .ok source => return (← command.task.account lookUp source).outcome verbose

/-- Carries out what the arguments ask for. -/
def outcome (lookUp : String → m FileEntry) (arguments : List String) : m Outcome :=
  match Invocation.ofArguments arguments with
  | .error (.help page) => pure { output := page }
  | .error (.complaint text) => pure { errors := text, ending := .exit 2 }
  | .ok ⟨_, none⟩ => pure { output := mainInterface.usage, ending := .exit 1 }
  | .ok ⟨verbose, some command⟩ => command.outcome lookUp verbose

end GridRobot.CommandLine
