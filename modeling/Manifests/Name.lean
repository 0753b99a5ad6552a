/-! # Canonical names

A declared name becomes the name of its resource: a hump of upper-case letters starts a new part, every other
character outside `[a-z0-9.]` becomes a dash, runs of dashes become one, no dash or point stands at either end,
and 63 characters are kept at most. -/

namespace Manifests.Name

/-- The most characters a name has. -/
def maxLength : Nat := 63

/-- A lower-case letter of ASCII. -/
def isLower (c : Char) : Bool := 'a' ≤ c && c ≤ 'z'

/-- An upper-case letter of ASCII. -/
def isUpper (c : Char) : Bool := 'A' ≤ c && c ≤ 'Z'

/-- A digit of ASCII. -/
def isDigit (c : Char) : Bool := '0' ≤ c && c ≤ '9'

/-- A dash or a point. -/
def isSeparator (c : Char) : Bool := c = '-' || c = '.'

/-- The characters of a name for those declared, where `joins` says that an upper-case letter that comes next
    starts a new part. -/
def spell (joins : Bool) : List Char → List Char
  | [] => []
  | c :: cs =>
    let joinsNext := isLower c || isDigit c
    if isUpper c then
      if joins then '-' :: c.toLower :: spell joinsNext cs else c.toLower :: spell joinsNext cs
    else if isLower c || isDigit c || c = '.' then c :: spell joinsNext cs
    else '-' :: spell joinsNext cs

/-- One dash for each run of dashes, none for a run that `afterDash` says has one already. -/
def collapse (afterDash : Bool) : List Char → List Char
  | [] => []
  | c :: cs =>
    if c = '-' then if afterDash then collapse true cs else '-' :: collapse true cs
    else c :: collapse false cs

/-- Without the separators at the end. -/
def trimEnd (cs : List Char) : List Char := (cs.reverse.dropWhile isSeparator).reverse

/-- Without the separators at either end. -/
def trim (cs : List Char) : List Char := trimEnd (cs.dropWhile isSeparator)

/-- The canonical name for a declared one. It is empty if nothing of it can stand in a name. -/
def normalize (declared : String) : String :=
  String.ofList (trimEnd ((trim (collapse false (spell false declared.toList))).take maxLength))

end Manifests.Name
