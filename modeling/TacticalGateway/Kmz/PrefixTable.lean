import TacticalGateway.Lib.Regex
import TacticalGateway.Normalizers.CotXml

/-! The tables of the label recognizer: a pattern or word each, with the symbol code that stands
for it. -/
namespace TacticalGateway.Kmz
open Normalizers (isSpace)
open Regex (Pattern)

/-- `str.isdecimal` and `str.isalnum` of one character. -/
structure Tables where
  isDecimal : Char → Bool
  isAlnum : Char → Bool

def Tables.isWord (t : Tables) (c : Char) : Bool := t.isAlnum c || c = '_'

inductive Status where
  | clean
  | bestEffort
  deriving DecidableEq

structure PrefixEntry where
  pattern : Pattern
  sidcTemplate : String
  doctrinalKind : String
  status : Status
  notes : String

structure WordEntry where
  word : String
  sidcTemplate : String
  doctrinalKind : String
  status : Status
  notes : String

def dashes (n : Nat) : String := String.ofList (List.replicate n '-')

/-- `_g`, which raises for a longer function code. -/
def g (functionCode : String) (_ : functionCode.toList.length ≤ 6) : String :=
  "GUGP" ++ (functionCode ++ dashes (6 - functionCode.toList.length)) ++ "-----"

theorem length_g (functionCode : String) (short : functionCode.toList.length ≤ 6) :
    (g functionCode short).toList.length = 15 := by
  simp only [g, dashes, String.toList_append, String.toList_ofList, List.length_append,
    List.length_replicate]
  have marks : "GUGP".toList.length = 4 ∧ "-----".toList.length = 5 := ⟨rfl, rfl⟩
  omega

/-- A letter of a pattern with `re.IGNORECASE`, with the characters beyond ASCII that fold to it. -/
def ignoringCase (letter c : Char) : Bool :=
  c.toLower = letter.toLower ||
    (letter.toLower, c) ∈ [('k', '\u212a'), ('s', '\u017f'), ('i', '\u0131'), ('i', '\u0130')]

def capitals : List Char :=
  ['A', 'B', 'C', 'D', 'E', 'F', 'G', 'H', 'I', 'J', 'K', 'L', 'M', 'N', 'O', 'P', 'Q', 'R', 'S',
    'T', 'U', 'V', 'W', 'X', 'Y', 'Z']

def folded (c : Char) : Char :=
  ([('\u212a', 'k'), ('\u017f', 's'), ('\u0131', 'i'), ('\u0130', 'i')].lookup c).getD c.toLower

theorem folded_of_ignoringCase {letter c : Char} (capital : letter ∈ capitals)
    (fits : ignoringCase letter c = true) : folded c = letter.toLower := by
  simp only [ignoringCase, Bool.or_eq_true, decide_eq_true_eq, List.mem_cons, Prod.mk.injEq,
    List.not_mem_nil, or_false] at fits
  rcases fits with lower | ⟨same, rfl⟩ | ⟨same, rfl⟩ | ⟨same, rfl⟩ | ⟨same, rfl⟩
  · have beyond : ∀ d ∈ ['\u212a', '\u017f', '\u0131', '\u0130'], ∀ l ∈ capitals,
        d.toLower ≠ l.toLower := by simp [capitals]
    have ascii : c ∉ ['\u212a', '\u017f', '\u0131', '\u0130'] :=
      fun member => beyond c member letter capital lower
    simp only [List.mem_cons, List.not_mem_nil, or_false, not_or] at ascii
    have missing : [('\u212a', 'k'), ('\u017f', 's'), ('\u0131', 'i'), ('\u0130', 'i')].lookup c =
        none := by simp [List.lookup_eq_none_iff, ascii]
    rw [folded, missing, Option.getD_none, lower]
  all_goals
    rw [same]
    decide

theorem ignoringCase_unique {letter letter' c : Char} (capital : letter ∈ capitals)
    (capital' : letter' ∈ capitals) (fits : ignoringCase letter c = true)
    (fits' : ignoringCase letter' c = true) : letter = letter' := by
  have distinct : (capitals.map Char.toLower).Nodup := by simp [capitals]
  exact List.inj_on_of_nodup_map distinct capital capital'
    ((folded_of_ignoringCase capital fits).symm.trans (folded_of_ignoringCase capital' fits'))

theorem folded_blank {c : Char} (blank : isSpace c = true) : (folded c).isLower = false := by
  simp only [isSpace, decide_eq_true_eq, List.mem_cons, List.not_mem_nil, or_false] at blank
  rcases blank with rfl | rfl | rfl | rfl | rfl | rfl | rfl | rfl | rfl | rfl | rfl | rfl
    | rfl | rfl |
    rfl | rfl | rfl | rfl | rfl | rfl | rfl | rfl | rfl | rfl | rfl | rfl | rfl | rfl | rfl <;>
  decide

theorem ignoringCase_blank {letter c : Char} (capital : letter ∈ capitals)
    (blank : isSpace c = true) : ignoringCase letter c = false := by
  have small : ∀ l ∈ capitals, l.toLower.isLower = true := by simp [capitals, Char.isLower]
  cases fits : ignoringCase letter c with
  | false => rfl
  | true =>
    have lower := small letter capital
    rw [← folded_of_ignoringCase capital fits, folded_blank blank] at lower
    cases lower

def literal (letters : String) : Pattern :=
  .inOrder (letters.toList.map (fun letter => .one (ignoringCase letter)))

def spaces : Pattern := .many isSpace 1 none

/-- `_prefix`. -/
def prefixPattern (p : String) : Pattern :=
  .inOrder [.start, literal p, .alt (.seq spaces (.one (fun c => !isSpace c))) .finish]

/-- `_prefix_word("BNDRY|BOUNDARY")`: the alternatives are the anchored first word and the second
word with the boundary behind it. -/
def boundaryPattern : Pattern :=
  .alt (.inOrder [.start, literal "BNDRY"]) (.inOrder [literal "BOUNDARY", .boundary])

def clean (p sidcTemplate doctrinalKind : String) : PrefixEntry :=
  ⟨prefixPattern p, sidcTemplate, doctrinalKind, .clean, ""⟩

def prefixTable : List PrefixEntry :=
  [⟨prefixPattern "PL", g "GLP" (by decide), "phase_line", .bestEffort,
      "phase line variant inferred; planner may have meant a specific PL type"⟩,
    clean "LDLC" (g "GLF" (by decide)) "ld_lc",
    clean "LD" (g "GLL" (by decide)) "line_of_departure",
    clean "LOA" (g "OLAA" (by decide)) "limit_of_advance",
    clean "FEBA" (g "OLF" (by decide)) "feba",
    clean "FLOT" (g "OLT" (by decide)) "flot",
    ⟨boundaryPattern, g "GLB" (by decide), "boundary", .bestEffort,
      "boundary echelon not derivable from label"⟩,
    clean "AO" (g "GAG" (by decide)) "area_of_operations",
    clean "EA" (g "OAE" (by decide)) "engagement_area",
    clean "AA" (g "GAA" (by decide)) "assembly_area",
    clean "BP" (g "DAB" (by decide)) "battle_position",
    clean "HA" (g "OAH" (by decide)) "holding_area",
    clean "SBF" (g "OAS" (by decide)) "support_by_fire",
    clean "ATK" (g "OAK" (by decide)) "attack_position",
    clean "SP" (g "OPP" (by decide)) "start_point",
    clean "RP" (g "OPR" (by decide)) "release_point",
    clean "MSR" (g "OLLS" (by decide)) "main_supply_route",
    clean "ASR" (g "OLLA" (by decide)) "alt_supply_route",
    clean "CCP" (g "OPCC" (by decide)) "casualty_collection_point",
    clean "CP" (g "OPC" (by decide)) "contact_point",
    clean "OBJ" (g "OAO" (by decide)) "objective",
    clean "TAI" (g "GPRI" (by decide)) "target_area_of_interest",
    clean "NAI" (g "GPRN" (by decide)) "named_area_of_interest",
    clean "TRP" (g "DPT" (by decide)) "target_reference_point",
    clean "FSCL" (g "LF" (by decide)) "fscl",
    clean "CFL" (g "LC" (by decide)) "cfl",
    clean "RFL" (g "LR" (by decide)) "rfl",
    clean "NFL" (g "LN" (by decide)) "nfl",
    clean "NFA" (g "AN" (by decide)) "no_fire_area",
    clean "RFA" (g "AR" (by decide)) "restrictive_fire_area",
    clean "ROZ" (g "ARZ" (by decide)) "roz",
    clean "PZ" (g "PPZ" (by decide)) "pickup_zone",
    clean "LZ" (g "PPL" (by decide)) "landing_zone",
    clean "DZ" (g "PPD" (by decide)) "drop_zone"]

def wordTable : List WordEntry :=
  [⟨"checkpoint", g "OPCK" (by decide), "checkpoint", .bestEffort,
      "matched by word; specific checkpoint variant not derivable"⟩,
    ⟨"control point", g "OPC" (by decide), "control_point", .bestEffort,
      "matched by word; generic control point assigned"⟩,
    ⟨"bridge", g "EBB" (by decide), "bridge", .bestEffort,
      "matched by word; bridge feature, affiliation may need review"⟩,
    ⟨"objective", g "OAO" (by decide), "objective", .bestEffort,
      "matched by word; prefer 'OBJ ' prefix for clean match"⟩]

/-- `^[A-Z]{1,2}\d{3,4}\b`. -/
def targetDesignatorPattern (t : Tables) : Pattern :=
  .inOrder [.start, .many (fun c => 'A' ≤ c && c ≤ 'Z') 1 (some 2), .many t.isDecimal 3 (some 4),
    .boundary]

def targetDesignatorSidc : String := g "DPT" (by decide)

def targetDesignatorKind : String := "target_reference_point"

def geometryFallbackSidc : GeometryType → String
  | .point => g "GPP" (by decide)
  | .lineString => g "GLG" (by decide)
  | .polygon => g "GAG" (by decide)

/-- `^(route|axis)\b`. -/
def routePattern : Pattern :=
  .inOrder [.start, .alt (literal "route") (literal "axis"), .boundary]

def routeSidc : String := g "OLR" (by decide)

def routeKind : String := "route"

end TacticalGateway.Kmz
