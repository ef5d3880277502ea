import SmallLisp.Settings
import SmallLisp.Text.Quoted
import SmallLisp.Yaml.Document

/-!
# Settings from a document

A settings document is a mapping.  Every key is the name of a setting, and no key stands twice.  A
setting that is absent, or has no value, keeps the value it has without the document.  The key `<<`
merges further mappings: they give the settings that nothing in front of them names.

A text setting takes the text of any scalar.  A number takes whole numbers, and other numbers cut
off toward zero.  A truth value has the spellings `true` and `false`, and the words for yes and no
besides.  A list of texts takes a sequence of scalars; items without a value are dropped.

`Yaml.decodeSettings` is a decoder of such documents.  It reports every problem of a document in
order, each with its line.  A key that stands twice hides all other problems of its mapping.
Documents with anchors, aliases, tags or directives are beyond it: it takes them for malformed ones.
-/

namespace SmallLisp

open Yaml

/-- The type of a setting, or of the settings as a whole. -/
inductive SettingType where
  /-- A text. -/
  | text
  /-- A whole number. -/
  | number
  /-- A truth value. -/
  | truth
  /-- A list of texts. -/
  | texts
  /-- All settings. -/
  | settings
deriving DecidableEq

/-- How messages name a type. -/
def SettingType.name : SettingType → String
  | text => "string"
  | number => "int"
  | truth => "bool"
  | texts => "[]string"
  | settings => "config.Config"

/-- Something in a document that does not fit. -/
inductive Problem where
  /-- A scalar has the wrong type. -/
  | scalar (line : Nat) (tag text : String) (type : SettingType)
  /-- A sequence stands where something else is needed. -/
  | sequence (line : Nat) (type : SettingType)
  /-- A mapping stands where something else is needed. -/
  | mapping (line : Nat) (type : SettingType)
  /-- There is no setting of this name. -/
  | unknown (line : Nat) (name : String)
  /-- A key stands a second time. -/
  | repeated (line : Nat) (name : String) (first : Nat)
deriving DecidableEq

namespace Problem

/-- A scalar as a message shows it: one of more than ten bytes is cut after seven. -/
def shown (text : String) : String :=
  let bytes := Text.bytesOf text
  if bytes.length ≤ 10 then text
  else String.ofList (Text.decodeAll (bytes.take 7)) ++ "..."

/-- A type conflict in words, where `what` stands for the node. -/
def conflict (line : Nat) (what : String) (type : SettingType) : String :=
  "line " ++ Number.wholeText line ++ ": cannot unmarshal " ++ what ++ " into " ++ type.name

/-- A problem in words. -/
def message : Problem → String
  | scalar line tag text type => conflict line (tag ++ " `" ++ shown text ++ "`") type
  | sequence line type => conflict line "!!seq" type
  | mapping line type => conflict line "!!map" type
  | unknown line name =>
    "line " ++ Number.wholeText line ++ ": field " ++ name ++ " not found in type " ++
      SettingType.settings.name
  | repeated line name first =>
    "line " ++ Number.wholeText line ++ ": mapping key " ++ Text.quoted name ++
      " already defined at line " ++ Number.wholeText first

end Problem

/-! ## Values -/

/-- What a node gives for a setting. -/
inductive Reading (α : Type) where
  /-- The node has no value. -/
  | absent
  /-- A value. -/
  | value (x : α)
  /-- It does not fit. -/
  | problems (ps : List Problem)

/-- The keys of a mapping that stand a second time, each pair in the order of the first one. -/
def repeatedKeys : List (Node × Node) → List Problem
  | [] => []
  | (k, _) :: rest =>
    (rest.filter (k.sameKey ·.1)).map
      (fun e => Problem.repeated e.1.line e.1.text k.line) ++ repeatedKeys rest

/-- The problems of a node that does not fit a type. -/
def misfit (type : SettingType) : Node → List Problem
  | .scalar line s => [.scalar line s.meaning.tag s.text type]
  | .sequence line _ => [.sequence line type]
  | .mapping line entries =>
    match repeatedKeys entries with
    | [] => [.mapping line type]
    | ps => ps

/-- Reads a scalar that has to be of a type, by its meaning. -/
def readScalar {α : Type} (type : SettingType) (convert : Scalar → Meaning → Option α)
    (n : Node) : Reading α :=
  match n with
  | .scalar _ s =>
    match s.meaning with
    | .null => .absent
    | m =>
      match convert s m with
      | some x => .value x
      | none => .problems (misfit type n)
  | _ => .problems (misfit type n)

/-- Reads a text. -/
def readText : Node → Reading String :=
  readScalar .text fun s _ => some s.text

/-- The least signed integer of 64 bits. -/
def leastInteger : Int := -0x8000000000000000

/-- The signed integer of 64 bits that a number is cut off to.  Above the range there is none, and
everything below it counts as the least integer; so does the number just above the range. -/
def cutOff (x : Float) : Option Int :=
  let limit : Int := 0x8000000000000000 * (Number.unitsPerOne : Int)
  if Number.isFinite x then
    let units := Number.signedUnits x
    if limit < units then none
    else if units = limit || units < -limit then some leastInteger
    else some (units.tdiv Number.unitsPerOne)
  else if Number.codeOf x = Number.infinityCode && Number.isNegative x then some leastInteger
  else none

/-- Reads a whole number. -/
def readNumber : Node → Reading Int :=
  readScalar .number fun _ m =>
    match m with
    | .int n => if n < 0x8000000000000000 then some n else none
    | .float x => cutOff x
    | _ => none

/-- The truth value of a word for yes or no. -/
def truthWord? (word : String) : Option Bool :=
  if ["y", "Y", "yes", "Yes", "YES", "on", "On", "ON"].contains word then some true
  else if ["n", "N", "no", "No", "NO", "off", "Off", "OFF"].contains word then some false
  else none

/-- Reads a truth value. -/
def readTruth : Node → Reading Bool :=
  readScalar .truth fun s m =>
    match m with
    | .bool b => some b
    | .str => truthWord? s.text
    | _ => none

/-- Reads the items of a list of texts. -/
def readItems : List Node → List String × List Problem
  | [] => ([], [])
  | n :: rest =>
    let (texts, ps) := readItems rest
    match readText n with
    | .absent => (texts, ps)
    | .value text => (text :: texts, ps)
    | .problems qs => (texts, qs ++ ps)

/-- Reads a list of texts. -/
def readTexts : Node → Reading (List String)
  | .sequence _ items =>
    match readItems items with
    | (texts, []) => .value texts
    | (_, ps) => .problems ps
  | n =>
    match readScalar .texts (fun _ _ => none) n with
    | .absent => .value []
    | r => r

/-! ## Documents -/

/-- Settings with what a reading gives. -/
def Reading.apply {α : Type} (s : Settings) (put : α → Settings) :
    Reading α → Settings × List Problem
  | absent => (s, [])
  | value x => (put x, [])
  | problems ps => (s, ps)

/-- Settings with the setting of a name, whose key is on `line`. -/
def Settings.put (s : Settings) (line : Nat) (name : String) (n : Node) :
    Settings × List Problem :=
  match name with
  | "prompt" => (readText n).apply s fun prompt => { s with prompt }
  | "history_file" => (readText n).apply s fun historyFile => { s with historyFile }
  | "max_depth" => (readNumber n).apply s fun maxDepth => { s with maxDepth }
  | "trace" => (readTruth n).apply s fun trace => { s with trace }
  | "preload" => (readTexts n).apply s fun preload => { s with preload }
  | name => (s, [.unknown line name])

/-- Settings as far as a document has been read. -/
structure Entered where
  /-- The settings. -/
  settings : Settings
  /-- The problems so far, in order. -/
  problems : List Problem := []
  /-- The names that a mapping may no longer give when it is merged. -/
  taken : List String := []

namespace Entered

/-- Adds problems. -/
def report (e : Entered) (ps : List Problem) : Entered :=
  { e with problems := e.problems ++ ps }

/-- Whether a key asks for a merge. -/
def isMergeKey : Node → Bool
  | .scalar _ s =>
    match s.meaning with
    | .merge => true
    | _ => false
  | _ => false

/-- Whether a key is a text and nothing else. -/
def isName : Node → Bool
  | .scalar _ s =>
    match s.meaning with
    | .str => true
    | _ => false
  | _ => false

/-- Enters a key and its value.  In a mapping that is `merged`, names that are taken are passed
over.  A key without a value is no key. -/
def enter (merged : Bool) (e : Entered) (entry : Node × Node) : Entered :=
  let (key, value) := entry
  if isMergeKey key then e
  else
    match readText key with
    | .absent => e
    | .problems ps => e.report ps
    | .value name =>
      if merged && e.taken.contains name then e
      else
        let (settings, ps) := e.settings.put key.line name value
        { settings
          problems := e.problems ++ ps
          taken := if merged || isName key then name :: e.taken else e.taken }

/-- Enters the entries of a mapping, none of which may stand twice. -/
def enterAll (merged : Bool) (e : Entered) (entries : List (Node × Node)) : Entered :=
  match repeatedKeys entries with
  | [] => entries.foldl (enter merged) e
  | ps => e.report ps

mutual

/-- Merges a mapping, or a sequence of mappings in order.  Nothing else can be merged. -/
def merge (e : Entered) : Node → Option Entered
  | .scalar _ _ => none
  | .sequence _ items => mergeItems e items
  | .mapping _ entries =>
    if (repeatedKeys entries).isEmpty then mergeWithin (e.enterAll true entries) entries
    else some (e.enterAll true entries)

/-- Merges mappings in order. -/
def mergeItems (e : Entered) : List Node → Option Entered
  | [] => some e
  | n :: rest =>
    match n with
    | .mapping _ _ =>
      match merge e n with
      | some e => mergeItems e rest
      | none => none
    | _ => none

/-- Merges what the entries of a mapping ask for. -/
def mergeWithin (e : Entered) : List (Node × Node) → Option Entered
  | [] => some e
  | (key, value) :: rest => if isMergeKey key then merge e value else mergeWithin e rest

end

end Entered

/-- What the entries of a document make of settings; none if something is merged that is no
mapping. -/
def Settings.enterDocument (s : Settings) (entries : List (Node × Node)) : Option Entered :=
  let e := Entered.enterAll false { settings := s } entries
  if (repeatedKeys entries).isEmpty then e.mergeWithin entries else some e

/-! ## Decoding -/

/-- Why a document gives no settings. -/
inductive DocumentError where
  /-- It is not well formed. -/
  | malformed
  /-- It has problems. -/
  | unfit (problems : List Problem)
deriving DecidableEq

/-- An error in words. -/
def DocumentError.message : DocumentError → String
  | malformed => "yaml: malformed document"
  | unfit ps =>
    "yaml: unmarshal errors:\n  " ++ String.intercalate "\n  " (ps.map Problem.message)

/-- Fills settings in from a node. -/
def Settings.ofNode (s : Settings) : Node → Except DocumentError Settings
  | .mapping _ entries =>
    match s.enterDocument entries with
    | none => .error .malformed
    | some e => if e.problems.isEmpty then .ok e.settings else .error (.unfit e.problems)
  | n =>
    match readScalar .settings (fun _ _ => none) n with
    | .absent => .ok s
    | .value s => .ok s
    | .problems ps => .error (.unfit ps)

/-- Fills settings in from the document in a stream. -/
def Yaml.decodeSettings : SettingsDecoder := fun s stream =>
  match stream with
  | .error reason => { settings := s, fault := some (.failed ("yaml: input error: " ++ reason)) }
  | .ok bytes =>
    match Document.read bytes with
    | none => { settings := s, fault := some (.failed DocumentError.malformed.message) }
    | some .empty => { settings := s, fault := some .ended }
    | some (.root n) =>
      match s.ofNode n with
      | .ok filled => { settings := filled }
      | .error e => { settings := s, fault := some (.failed e.message) }

end SmallLisp
