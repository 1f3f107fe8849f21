import GridRobot.Decimal.Binary
import GridRobot.Level
import GridRobot.Random.Seed
import GridRobot.Settings.Basic

/-!
# The run that settings ask for

Settings are values of any kind, and each is tested where a run comes to it. The size of a level
comes first, then the seed, the rows and columns, and the number of obstacles. The two limits are
tested only while the program runs, so a limit that cannot be compared with a count does no harm to
a program that never comes to it.
-/

namespace GridRobot.Settings

/-- A value that can be compared with a count. -/
inductive Number where
  | whole (value : Int)
  | real (value : Float)

/-- A value as a number. Truth values count as zero and one. -/
def Number.of? : Json → Option Number
  | .int value => some (.whole value)
  | .bool value => some (.whole (if value then 1 else 0))
  | .float value => some (.real value)
  | .null | .str _ | .arr _ | .obj _ => none

/-- Why a setting cannot be used. -/
inductive Fault where
  | emptyGrid (width height : Json)
  | unordered (relation left right : String)
  | notWhole
  | notCount
  | seedKind
  | seedText (text : Text)

/-- Where the first run of lone halves in a text starts, and where it ends. -/
def firstHalves (points : List CodePoint) : Nat × Nat :=
  let start := (points.takeWhile fun point => point.char?.isSome).length
  let run := ((points.drop start).takeWhile fun point => point.char?.isNone).length
  (start, start + run)

/-- The wording for a text that has lone halves of surrogate pairs. -/
def halvesMessage (text : Text) : String :=
  let (start, stop) := firstHalves text.points
  let place :=
    if stop = start + 1 then
      "character " ++ Text.quoted ⟨(text.points.drop start).take 1⟩ ++ " in position " ++
        toString start
    else "characters in position " ++ toString start ++ "-" ++ toString (stop - 1)
  "'utf-8' codec can't encode " ++ place ++ ": surrogates not allowed"

/-- The wording for a setting that cannot be used. -/
def Fault.message : Fault → Text
  | .emptyGrid width height =>
      "Grid size must be positive, got " ++ width.shown ++ "x" ++ height.shown
  | .unordered relation left right =>
      .ofString ("'" ++ relation ++ "' not supported between instances of '" ++ left ++ "' and '" ++
        right ++ "'")
  | .notWhole => "'float' object cannot be interpreted as an integer"
  | .notCount => "slice indices must be integers or None or have an __index__ method"
  | .seedKind =>
      "The only supported seed types are: None,\nint, float, str, bytes, and bytearray."
  | .seedText text => .ofString (halvesMessage text)

/-- Whether a fault is about the value of a setting and not about its kind. -/
def Fault.isValue : Fault → Bool
  | .emptyGrid _ _ | .seedText _ => true
  | .unordered _ _ _ | .notWhole | .notCount | .seedKind => false

/-- Whether a size is above zero. -/
def isPositive (size : Json) : Except Fault Bool :=
  match Number.of? size with
  | some (.whole value) => .ok (0 < value)
  | some (.real value) => .ok (!(value <= 0.0))
  | none => .error (.unordered "<=" size.typeName "int")

/-- A size as a whole number. -/
def size (given : Json) : Except Fault Int :=
  match Number.of? given with
  | some (.whole value) => .ok value
  | some (.real _) => .error .notWhole
  | none => .error (.unordered "<=" given.typeName "int")

/-- How many of the available cells are blocked. A real number serves only if it is above their
number, because then all of them are. -/
def blockedCount (available : Nat) (given : Json) : Except Fault Int :=
  match Number.of? given with
  | some (.whole value) => .ok value
  | some (.real value) => if Float.ofNat available < value then .ok available else .error .notCount
  | none => .error (.unordered "<" "int" given.typeName)

/-- The whole number that a seed stands for. What is no number gives no particular order. -/
def seedNumber (given : Json) : Except Fault (Option Int) :=
  match given with
  | .null => .ok none
  | .int value => .ok (some value)
  | .bool value => .ok (some (if value then 1 else 0))
  | .float value => .ok ((Random.realSeed? value).map Int.ofNat)
  | .str text =>
      match text.toString? with
      | some string => .ok (some (Random.textSeed string))
      | none => .error (.seedText text)
  | .arr _ | .obj _ => .error .seedKind

/-- The level that settings ask for. Without a second row no cell can be blocked, and the columns
are looked at only after the obstacles. -/
def plan (settings : Settings) : Except Fault Level.Plan := do
  let empty := Fault.emptyGrid settings.width settings.height
  if !(← isPositive settings.width) then throw empty
  if !(← isPositive settings.height) then throw empty
  let seed ← seedNumber settings.seed
  let height ← size settings.height
  let available ←
    if 1 < height then do
      let width ← size settings.width
      pure (Level.candidates width height [⟨0, height - 1⟩] (some 0)).length
    else pure 0
  let obstacles ← blockedCount available settings.obstacles
  let width ← size settings.width
  return { width, height, obstacles, seed }

/-- From which count on a limit is reached. -/
inductive Threshold where
  | from (count : Int)
  | never
  | unordered
  deriving DecidableEq, Repr

/-- The threshold of a limit. A count has reached a real number when it has reached the next whole
number. Counts start at zero. -/
def threshold (limit : Json) : Threshold :=
  match Number.of? limit with
  | some (.whole value) => .from value
  | some (.real value) =>
      match Decimal.Binary.ofFloat value with
      | .nan | .infinite false => .never
      | .infinite true => .from 0
      | .finite negative mantissa exponent _ =>
          .from (Decimal.Binary.ceiling negative mantissa exponent)
  | none => .unordered

/-- The threshold as a number. A limit that cannot be compared fails at the first test, which is
where it is reached if it is zero. -/
def Threshold.count (unreached : Int) : Threshold → Int
  | .from count => count
  | .never => unreached
  | .unordered => 0

/-- The limits of a run. -/
structure Limits where
  steps : Int
  instructions : Int
  deriving DecidableEq, Repr

/-- The limits of a run of a source on a level. In place of a limit that is never reached stands a
number that no run which ends can reach. Statements have at most two instructions and at least one
character. A run between two steps that is twice at the same instruction goes on for ever. So does
one without a limit of steps that is twice at the same instruction, in the same cell and facing the
same way, since a level has no beepers. -/
def limits (settings : Settings) (plan : Level.Plan) (source : String) : Limits :=
  let code : Int := 2 * source.length + 2
  let steps := threshold settings.maxSteps
  let situations : Int :=
    match steps with
    | .from count => max 0 count + 1
    | .never => 4 * plan.width * plan.height + 1
    | .unordered => 1
  let instructions := (threshold settings.maxInstructions).count (code * situations + 1)
  ⟨steps.count (instructions + 1), instructions⟩

/-- The report of a failure under given settings: a limit is shown as it was given, and one that
cannot be compared with a count is a fault of the settings. -/
def report? (settings : Settings) (failure : Failure) : Except Fault (Option Report) :=
  match failure.fault with
  | .stepLimit _ => limitReport settings.maxSteps GridRobot.Fault.stepLimitMessage
  | .instructionLimit _ =>
      limitReport settings.maxInstructions GridRobot.Fault.instructionLimitMessage
  | _ => .ok failure.report?
where
  limitReport (limit : Json) (message : Text → Text) : Except Fault (Option Report) :=
    if threshold limit = .unordered then .error (.unordered ">=" "int" limit.typeName)
    else
      .ok (failure.report?.map fun report => { report with message := message limit.shown })

end GridRobot.Settings
