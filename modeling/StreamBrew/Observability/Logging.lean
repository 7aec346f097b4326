/-
The fields of an operational log event: what the services' logger publishes
(internal/observability/logging.go), and what the web server's does
(server-logger.ts).

Both replace a value by a text where a name looks like that of a
credential. The one is a slog handler: it is given fields through
attributes and groups, and fills a map of them. The other is given an
object, and goes through it. Every value here is a string.

Maps are values, so a copy of one (cloneFields) is the map itself.
-/
import Mathlib.Data.List.Infix
import StreamBrew.Lib.Nested

namespace StreamBrew.Observability

/-- Attributes with their groups; values are texts. -/
abbrev Fields := Nested.Fields String String

-- =================================== letters

/-- `[a-z0-9]` -/
def alnum (c : Char) : Bool := c.isLower || c.isDigit

/-- The lower case of the characters beyond ASCII, as the two languages
have it from the Unicode tables: a single character, or a text that may
depend on what stands around it. They have the same ASCII letters. -/
structure CaseTables where
  simple : Char → Char
  full : (before : List Char) → Char → (after : List Char) → List Char
  filter_full : ∀ before c after,
    (full before c after).filter alnum = [simple c].filter alnum

variable (tables : CaseTables)

/-- `strings.ToLower` -/
def toLower (key : List Char) : List Char :=
  key.map fun c => if c.toNat < 128 then c.toLower else tables.simple c

/-- `String.prototype.toLowerCase`, after the characters `before`. -/
def toLowerCase (before : List Char) : List Char → List Char
  | [] => []
  | c :: after =>
      (if c.toNat < 128 then [c.toLower] else tables.full before c after)
        ++ toLowerCase (before ++ [c]) after

/-- What stands for a sensitive value. -/
def redacted : String := "[REDACTED]"

/-- The names that are sensitive, also at the end of longer ones. -/
def sensitiveParts : List String :=
  ["authorization", "cookie", "password", "secret", "token"]

-- ================================ logging.go

/-- `strings.NewReplacer("_", "", "-", "", ".", "")` -/
def replacer (normalized : List Char) : List Char :=
  normalized.filter fun c => c != '_' && c != '-' && c != '.'

/-- The key of an attribute is sensitive (Go). -/
def sensitiveKey (key : String) : Bool :=
  let normalized := replacer (toLower tables key.toList)
  sensitiveParts.any fun part => decide (part.toList <:+: normalized)

/-- addAttr, for each of the attributes. -/
def addAttr (fields : Fields) (groups : List String) : Fields → Fields
  | .nil => fields
  | .group key children attrs =>
      addAttr (addAttr fields (groups ++ [key]) children) groups attrs
  | .leaf key value attrs =>
      if sensitiveKey tables key then
        addAttr (fields.store key redacted groups) groups attrs
      else addAttr (fields.store key value groups) groups attrs

/-- The attributes and open groups of a logger. -/
structure FanoutHandler where
  fields : Fields
  groups : List String

/-- The handler of `ConfigureDefault`. -/
def FanoutHandler.default : FanoutHandler := ⟨.nil, []⟩

/-- The fields of the event that is published. -/
def FanoutHandler.handle (handler : FanoutHandler) (record : Fields) :
    Fields := addAttr tables handler.fields handler.groups record

/-- Attributes are added within the open groups. -/
def FanoutHandler.withAttrs (handler : FanoutHandler) (attrs : Fields) :
    FanoutHandler :=
  { handler with fields := addAttr tables handler.fields handler.groups attrs }

/-- A group without a name opens nothing. -/
def FanoutHandler.withGroup (handler : FanoutHandler) (name : String) :
    FanoutHandler :=
  if name = "" then handler
  else { handler with groups := handler.groups ++ [name] }

/-- How a logger is derived from another one. -/
inductive Derivation
  | withAttrs (attrs : Fields)
  | withGroup (name : String)
  deriving DecidableEq, Repr

/-- A logger that was derived from another one. -/
def FanoutHandler.derive (handler : FanoutHandler) :
    Derivation → FanoutHandler
  | .withAttrs attrs => handler.withAttrs tables attrs
  | .withGroup name => handler.withGroup name

/-- What is published of a record by a logger that was derived so. -/
def published (derivations : List Derivation) (record : Fields) : Fields :=
  (derivations.foldl (FanoutHandler.derive tables) .default).handle tables
    record

/-- The fields that a logger and a record give: those of a group are all
that come after it. -/
def given : List Derivation → Fields → Fields
  | [], record => record
  | .withAttrs attrs :: derivations, record =>
      attrs ++ given derivations record
  | .withGroup name :: derivations, record =>
      if name = "" then given derivations record
      else .group name (given derivations record) .nil

-- ========================== server-logger.ts

/-- The key of a value is sensitive (TypeScript). -/
def isSensitive (key : String) : Bool :=
  let normalized := (toLowerCase tables [] key.toList).filter alnum
  sensitiveParts.any fun part => decide (part.toList <:+: normalized)

/-- Sensitive values are replaced at any depth. -/
def redact : Fields → Fields
  | .nil => .nil
  | .leaf key value rest =>
      .leaf key (if isSensitive tables key then redacted else value)
        (redact rest)
  | .group key children rest =>
      if isSensitive tables key then .leaf key redacted (redact rest)
      else .group key (redact children) (redact rest)

-- ================================= agreement

/-- The letters and digits of a name, in lower case. -/
def lettersAndDigits (name : String) : List Char :=
  (name.toList.map fun c =>
    if c.toNat < 128 then c.toLower else tables.simple c).filter
      fun c => c.isLower || c.isDigit

/-- The letters and digits of a name contain a word for a credential. -/
def NamesCredential (name : String) : Prop :=
  ∃ word ∈ ["authorization", "cookie", "password", "secret", "token"],
    word.toList <:+: lettersAndDigits tables name

/-- No value at or below the name of a credential is let through. -/
def Sealed (fields : Fields) : Prop :=
  ∀ path value, fields.read path = some (some value) →
    (∃ key ∈ path, NamesCredential tables key) → value = redacted

/-- What both go through alike: no group has a sensitive name or nothing
in it, and a value whose name is sensitive is that to the handler too. -/
def Alike : Fields → Prop
  | .nil => True
  | .leaf key value rest =>
      (isSensitive tables key = true →
        sensitiveKey tables key = true ∨ value = redacted) ∧ Alike rest
  | .group key children rest =>
      isSensitive tables key = false ∧ children ≠ .nil ∧ Alike children
        ∧ Alike rest

end StreamBrew.Observability
