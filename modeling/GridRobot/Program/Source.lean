import GridRobot.Log
import GridRobot.Program.Stack

/-!
# Program sources

A source whose first character that is not blank opens a list or an object is a data document. Every
other source is program text. A source is read on a stack, which may give it up.
-/

namespace GridRobot

/-- Why a source has no program. -/
inductive SourceFault where
  | lexical (fault : LexicalFault)
  | grammar (fault : GrammarFault)
  | document (fault : DocumentFault)
  | oversize (digits : Nat)

/-- The report of a faulty source. A number that is too long to be read has none. -/
def SourceFault.report? : SourceFault → Option Report
  | .lexical fault => some fault.report
  | .grammar fault => some fault.report
  | .document fault => some fault.report
  | .oversize _ => none

/-- The wording of a faulty source. -/
def SourceFault.message : SourceFault → Text
  | .lexical fault => fault.report.text
  | .grammar fault => fault.report.text
  | .document fault => fault.report.text
  | .oversize digits => Text.oversizeMessage digits

namespace Source

/-- Whether a source is a data document. -/
def isDocument (source : String) : Bool :=
  match Text.trimStart source.toList with
  | '\x7b' :: _ => true
  | '[' :: _ => true
  | _ => false

/-- The program of a data document. -/
def documentProgram (stack : Stack) (source : String) : Except SourceFault (List Stmt) :=
  match Document.boundedDecode stack.data source with
  | .error ⟨.oversize digits, _⟩ => .error (.oversize digits)
  | .error failure => .error (.document (Document.unreadable source failure))
  | .ok document =>
      match Document.boundedProgram stack.document document with
      | .error cause => .error (.document ⟨cause, none⟩)
      | .ok program => .ok program

theorem exists_document_of_documentProgram {stack : Stack} {source : String} {program : List Stmt}
    (read : documentProgram stack source = .ok program) :
    ∃ document, Document.decode source = .ok document ∧
      Document.program document = .ok program := by
  unfold documentProgram at read
  split at read
  · cases read
  · cases read
  · next document decoded =>
      split at read
      · cases read
      · next bounded =>
          cases read
          exact ⟨document, (Document.boundedDecode_eq_ok_iff.mp decoded).2,
            (Document.boundedProgram_eq_ok_iff.mp bounded).2⟩

/-- The program of program text. -/
def textProgram (stack : Stack) (source : String) : Except SourceFault (List Stmt) :=
  match TokenList.ofText source with
  | .error fault => .error (.lexical fault)
  | .ok tokens =>
      match (Parse.boundedFile stack.text tokens).outcome with
      | .error fault => .error (.grammar fault)
      | .ok file => .ok file.program

theorem exists_file_of_textProgram {stack : Stack} {source : String} {program : List Stmt}
    (read : textProgram stack source = .ok program) :
    ∃ tokens file, TokenList.ofText source = .ok tokens ∧
      (Parse.boundedFile stack.text tokens).outcome = .ok file ∧
      (Parse.file tokens).outcome = .ok file ∧ file.program = program := by
  unfold textProgram at read
  split at read
  · cases read
  · next tokens scanned =>
      split at read
      · cases read
      · next file bounded =>
          cases read
          have same := (Parse.boundedFile_eq_file bounded).2
          exact ⟨tokens, file, scanned, bounded, same ▸ bounded, rfl⟩

/-- The program of a source. -/
def program (stack : Stack) (source : String) : Except SourceFault (List Stmt) :=
  if isDocument source then documentProgram stack source else textProgram stack source

/-- What is noted while a decoded document is read. -/
def documentRecords (document : Json) : List Log.Record :=
  match document with
  | .obj fields =>
      match Document.named fields with
      | .ok named =>
          [⟨.debug, "document", "Document declares " ++ toString named.count ++
            " program(s); active program " ++ Text.quoted named.active⟩]
      | .error _ => []
  | _ => []

/-- What is noted when program text has been cut into tokens. -/
def scanRecord (tokens : TokenList) : Log.Record :=
  ⟨.debug, "lexer", "Tokenized " ++ toString (tokens.tokens.length + 1) ++ " tokens over " ++
    toString tokens.stop.line ++ " lines"⟩

/-- What is noted while program text is read. -/
def textRecords (stack : Stack) (source : String) : List Log.Record :=
  match TokenList.ofText source with
  | .error _ => []
  | .ok tokens =>
      let reading := Parse.boundedFile stack.text tokens
      let again := (Parse.repeated reading.names).map fun (name : String) =>
        (⟨.warning, "parser", "Program " ++ Text.quoted name ++
          " declared more than once; the last declaration wins"⟩ : Log.Record)
      let parsed :=
        match reading.outcome with
        | .error _ => []
        | .ok file =>
            [(⟨.debug, "parser", "Parsed " ++ toString reading.names.eraseDups.length ++
              " program(s); active program " ++ Text.quoted file.active ++ " has " ++
              toString file.program.length ++ " statement(s)"⟩ : Log.Record)]
      scanRecord tokens :: again ++ parsed

/-- What is noted while a source is read. -/
def records (stack : Stack) (source : String) : List Log.Record :=
  if isDocument source then
    match Document.boundedDecode stack.data source with
    | .ok document => documentRecords document
    | .error _ => []
  else textRecords stack source

end Source

end GridRobot
