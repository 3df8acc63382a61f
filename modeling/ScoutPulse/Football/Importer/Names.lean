import ScoutPulse.Lib.Strings

/-!
# Competitions and names

The catalogue of competitions an import can bring in, and the keys under which two
spellings of a name are the same name.
-/

namespace ScoutPulse.Importer

open Strings

/-- `domain.CompetitionType`. -/
inductive CompetitionType
  | league
  | domesticCup
  | internationalCup
  | superCup
  deriving DecidableEq

/-- `Competition`: how one competition id of the source appears here. -/
structure Competition where
  name : String
  country : String
  type : CompetitionType
  /-- The domestic league a cup belongs to, empty for the others. -/
  league : String
  deriving DecidableEq

/-- `Catalog`. -/
def catalog : List (String × Competition) :=
  [("GB1", ⟨"Premier League", "England", .league, ""⟩),
   ("ES1", ⟨"LaLiga", "Spain", .league, ""⟩),
   ("IT1", ⟨"Serie A", "Italy", .league, ""⟩),
   ("L1", ⟨"Bundesliga", "Germany", .league, ""⟩),
   ("FR1", ⟨"Ligue 1", "France", .league, ""⟩),
   ("PO1", ⟨"Liga Portugal", "Portugal", .league, ""⟩),
   ("NL1", ⟨"Eredivisie", "Netherlands", .league, ""⟩),
   ("BE1", ⟨"Jupiler Pro League", "Belgium", .league, ""⟩),
   ("TR1", ⟨"Süper Lig", "Türkiye", .league, ""⟩),
   ("TS1", ⟨"Chance Liga", "Czech Republic", .league, ""⟩),
   ("SC1", ⟨"Scottish Premiership", "Scotland", .league, ""⟩),
   ("A1", ⟨"Austrian Bundesliga", "Austria", .league, ""⟩),
   ("GR1", ⟨"Super League Greece", "Greece", .league, ""⟩),
   ("DK1", ⟨"Danish Superliga", "Denmark", .league, ""⟩),
   ("C1", ⟨"Swiss Super League", "Switzerland", .league, ""⟩),
   ("FAC", ⟨"FA Cup", "England", .domesticCup, "GB1"⟩),
   ("CDR", ⟨"Copa del Rey", "Spain", .domesticCup, "ES1"⟩),
   ("CIT", ⟨"Coppa Italia", "Italy", .domesticCup, "IT1"⟩),
   ("DFB", ⟨"DFB-Pokal", "Germany", .domesticCup, "L1"⟩),
   ("NLP", ⟨"KNVB Beker", "Netherlands", .domesticCup, "NL1"⟩),
   ("SFA", ⟨"Scottish Cup", "Scotland", .domesticCup, "SC1"⟩),
   ("GRP", ⟨"Greek Cup", "Greece", .domesticCup, "GR1"⟩),
   ("DKP", ⟨"Danish Cup", "Denmark", .domesticCup, "DK1"⟩),
   ("GBCS", ⟨"Community Shield", "England", .superCup, "GB1"⟩),
   ("SUC", ⟨"Supercopa de España", "Spain", .superCup, "ES1"⟩),
   ("SCI", ⟨"Supercoppa Italiana", "Italy", .superCup, "IT1"⟩),
   ("DFL", ⟨"Franz Beckenbauer Supercup", "Germany", .superCup, "L1"⟩),
   ("FRCH", ⟨"Trophée des Champions", "France", .superCup, "FR1"⟩),
   ("POSU", ⟨"Supertaça Cândido de Oliveira", "Portugal", .superCup, "PO1"⟩),
   ("NLSC", ⟨"Johan Cruijff Schaal", "Netherlands", .superCup, "NL1"⟩),
   ("BESC", ⟨"Belgian Super Cup", "Belgium", .superCup, "BE1"⟩),
   ("CL", ⟨"UEFA Champions League", "Europe", .internationalCup, ""⟩),
   ("EL", ⟨"UEFA Europa League", "Europe", .internationalCup, ""⟩),
   ("UCOL", ⟨"UEFA Conference League", "Europe", .internationalCup, ""⟩),
   ("USC", ⟨"UEFA Super Cup", "Europe", .internationalCup, ""⟩)]

/-- `Catalog[c.League].Country`, empty for a league the catalogue does not have. -/
def countryOf (league : String) : String := ((catalog.lookup league).map (·.country)).getD ""

/-- `foldLetters`: the letters a mark-free form does not take apart. -/
def foldLetter : Char → List Char
  | 'ø' => ['o']
  | 'æ' => ['a', 'e']
  | 'ß' => ['s', 's']
  | 'ı' => ['i']
  | 'ł' => ['l']
  | 'đ' => ['d']
  | 'œ' => ['o', 'e']
  | 'þ' => ['t', 'h']
  | 'ð' => ['d']
  | c => [c]

/-- The loop of `fold`: whether a letter has been written, whether a gap is open. -/
def foldFrom [Unicode] (written space : Bool) : List Char → List Char
  | [] => []
  | r :: rest =>
      if Unicode.isMn r then foldFrom written space rest
      else if Unicode.isLetter r || Unicode.isDigit r then
        if space && written then ' ' :: r :: foldFrom true false rest
        else r :: foldFrom true false rest
      else foldFrom written true rest

/-- `fold`: lower case, no accents, no punctuation, single spaces. -/
def fold [Unicode] (s : String) : String :=
  String.ofList (foldFrom false false
    (Unicode.nfd (String.ofList ((toLower s).toList.flatMap foldLetter))).toList)

/-- `clubAffixes`: the legal-form tokens clubs are written with or without. -/
def clubAffixes : List String :=
  ["fc", "afc", "cf", "sc", "ac", "as", "ss", "ssc", "us", "acf", "sv", "vfb", "vfl", "tsg",
   "rcd", "rc", "ud", "cd", "sd", "ca", "fk", "sk", "bk", "kv", "krc", "rsc", "osc", "ogc",
   "losc", "sl", "club", "football", "calcio", "1", "de"]

/-- `clubKey`: a folded club name without its legal-form tokens. -/
def clubKey [Unicode] (s : String) : String :=
  let kept := (fields (fold s)).filter (· ∉ clubAffixes)
  if kept = [] then fold s else join kept " "

end ScoutPulse.Importer
