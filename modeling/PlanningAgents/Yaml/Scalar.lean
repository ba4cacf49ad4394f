import PlanningAgents.Decimal.Numeral
import PlanningAgents.Node.Basic
import PlanningAgents.Text.Hex
import PlanningAgents.Yaml.Token

/-!
# PlanningAgents.Yaml.Scalar

What the texts of a YAML file can be read as.  Every text may be taken for a text; only a plain one
may be taken for something else as well, or a literal block whose tag says so.
-/

namespace PlanningAgents.Yaml

/-! ## plain texts that are not only texts -/

/-- Whether a text stands for no value. -/
def isNull (s : String) : Bool := s = "null" || s = "Null" || s = "NULL" || s = "~"

/-- The truth value that a text stands for. -/
def bool? (s : String) : Option Bool :=
  if s = "true" || s = "True" || s = "TRUE" then some true
  else if s = "false" || s = "False" || s = "FALSE" then some false
  else none

/-- The number that digits of a base spell. -/
def digits? (base : Nat) (cs : List Char) : Option Nat :=
  if cs.isEmpty then none
  else cs.foldlM (fun n c => do
    let d ← Text.hexDigit? c
    if d < base then some (base * n + d) else none) 0

/-- The base that a mark before the digits tells. -/
def basedDigits? : List Char → Option Nat
  | '0' :: 'x' :: cs => digits? 16 cs
  | '0' :: 'o' :: cs => digits? 8 cs
  | '0' :: 'b' :: cs => digits? 2 cs
  | _ => none

/-- Whether there are zeros before further digits, so that this is no number. -/
def hasLeadingZeros (cs : List Char) : Bool :=
  match cs with
  | '0' :: c :: rest => (c :: rest).all Char.isDigit
  | _ => false

/-- The characters behind a sign. -/
def unsigned : List Char → List Char
  | '+' :: cs => cs
  | '-' :: cs => cs
  | cs => cs

/-- The natural number that a text stands for. -/
def nat? (s : String) : Option Nat :=
  let cs := match s.toList with
    | '+' :: cs => cs
    | cs => cs
  (basedDigits? cs).or
    (if hasLeadingZeros (unsigned s.toList) then none else digits? 10 cs)

/-- The negative number that a text stands for. -/
def negative? (s : String) : Option Nat :=
  match s.toList with
  | '-' :: cs => (basedDigits? cs).or (if hasLeadingZeros cs then none else digits? 10 cs)
  | _ => none

/-- The machine number that a text stands for. -/
def float? (s : String) : Option Float :=
  let cs := s.toList
  let behindPlus := match cs with
    | '+' :: cs => cs
    | cs => cs
  if behindPlus.head? = some '+' || (cs.head? = some '+' && behindPlus.head? = some '-') then none
  else
    let t := String.ofList behindPlus
    if t = ".inf" || t = ".Inf" || t = ".INF" then some (1 / 0)
    else if s = "-.inf" || s = "-.Inf" || s = "-.INF" then some (-1 / 0)
    else if s = ".nan" || s = ".NaN" || s = ".NAN" then some (0 / 0)
    else do
      let x := (← Decimal.Numeral.ofChars? behindPlus).nearest
      if x.isFinite then some x else none

/-- Whether a text, where anything is taken, turns out to be something else. -/
def isNoText (s : String) : Bool :=
  s.isEmpty || isNull s || (bool? s).isSome || (nat? s).any (· < 1 <<< 128) ||
    (negative? s).any (· ≤ 1 <<< 127) ||
    (!hasLeadingZeros (unsigned s.toList) && (float? s).isSome)

/-! ## tags -/

/-- The tag of a kind that every reader knows. -/
def knownTag (kind : String) : List UInt8 := ("tag:yaml.org,2002:" ++ kind).toUTF8.toList

/-- Whether a tag is one of the author's own. -/
def isOwnTag (tag : List UInt8) : Bool := tag.head? = some 0x21

/-- The value that a text is, written in a style and under a tag. -/
def scalar (style : TextStyle) (tag : Option (List UInt8)) (s : String) : Scalar :=
  let isPlain := style = .plain
  let bare (kind : String) : Bool :=
    isPlain || (style = .literal && tag = some (knownTag kind))
  let isOther :=
    match tag with
    | none => isPlain && isNoText s
    | some t =>
      (["bool", "int", "float", "null"].any fun kind => t = knownTag kind) ||
        (isOwnTag t && isPlain && isNoText s)
  let number := if bare "float" then float? s else none
  { text := some s
    freeText := if isOther then none else some s
    bool := if bare "bool" then bool? s else none
    int := if bare "int" then (nat? s).map Int.ofNat else none
    single := number.map Float.toFloat32
    double := number
    isAbsent :=
      if !isPlain then some false
      else match tag with
        | none => some (s.isEmpty || isNull s)
        | some t => if t ≠ knownTag "null" then some false else if isNull s then some true else none
    isEmpty := isPlain && s.isEmpty }

/-- Marks a node that has a tag of its author's own, unless the tag is no text. -/
def mark (tag : Option (List UInt8)) (n : Node) : Node :=
  if tag.any fun t => isOwnTag t && t.toByteArray.validateUTF8 then .tagged n else n

end PlanningAgents.Yaml
