import TacticalGateway.Normalizers.CotXml

/-! What the gateway reads off the symbol code of a tactical graphic: the affiliation, and the
geometry class of its function code. -/
namespace TacticalGateway.Ovl

inductive Affiliation where
  | friend
  | hostile
  | neutral
  | unknown
  deriving DecidableEq

def Affiliation.value : Affiliation → String
  | .friend => "friend"
  | .hostile => "hostile"
  | .neutral => "neutral"
  | .unknown => "unknown"

def affilChar : List (String × Affiliation) :=
  [("P", .unknown), ("U", .unknown), ("A", .friend), ("F", .friend), ("N", .neutral),
    ("S", .hostile), ("H", .hostile), ("G", .friend), ("W", .friend), ("D", .friend),
    ("L", .neutral), ("M", .hostile), ("J", .hostile), ("K", .hostile)]

inductive GeometryClass where
  | point
  | linear
  | area
  deriving DecidableEq

def GeometryClass.value : GeometryClass → String
  | .point => "point"
  | .linear => "linear"
  | .area => "area"

def functionGeometry : List (String × GeometryClass) :=
  [("GAA", .area), ("GAG", .area), ("OAF", .area), ("OAK", .area), ("OAR", .area), ("SLA", .area),
    ("PY", .point), ("NB", .area), ("NC", .area), ("OEB", .area), ("OFD", .area), ("OFS", .point),
    ("OGB", .area), ("OGF", .area), ("BCB", .area), ("BDE", .area),
    ("GLB", .linear), ("GLC", .linear), ("GLP", .linear), ("OLT", .linear), ("OLC", .linear),
    ("OLL", .linear), ("OLI", .linear), ("OLKGM", .linear), ("OLAA", .linear), ("OLAR", .linear),
    ("OLAV", .linear), ("OLAGS", .linear), ("OLAGM", .linear), ("OET", .linear), ("OEF", .linear),
    ("OMT", .point), ("NDP", .point), ("NEB", .point), ("NEC", .point),
    ("GPRI", .point), ("BCL", .linear)]

def parseAffiliationChar (sidc : String) : String :=
  match sidc.toList[1]? with
  | some c => String.singleton c
  | none => ""

def classifyAffiliation (sidc : String) : Affiliation :=
  (affilChar.lookup (Normalizers.upper (parseAffiliationChar sidc))).getD .unknown

/-- `sidc[4:10].replace("-", "")`. -/
def functionCode (sidc : String) : String :=
  if sidc.toList.length < 5 then ""
  else String.ofList (((sidc.toList.drop 4).take 6).filter (· ≠ '-'))

/-- The lengths `n, n - 1, …, 2` of the prefixes that are tried. -/
def prefixLengths (n : Nat) : List Nat := ((List.range (n + 1)).reverse).filter (1 < ·)

def classifyGeometry (sidc : String) : Option GeometryClass :=
  let fc := functionCode sidc
  if fc = "" then none
  else
    match functionGeometry.lookup fc with
    | some known => some known
    | none => (prefixLengths fc.toList.length).findSome?
        (fun n => functionGeometry.lookup (Text.prefixOf n fc))

def isKnown (sidc : String) : Bool := (classifyGeometry sidc).isSome

example : classifyGeometry "GFGPOLKGM------" = some .linear := by decide +kernel

end TacticalGateway.Ovl
