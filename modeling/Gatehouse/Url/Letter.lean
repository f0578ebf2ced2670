/-!
# Letters of names

Names are written in small letters, and a letter with a mark above or below it is one character.
The tables hold letters of the Latin, Greek, Cyrillic and Armenian scripts. They are not the whole
mapping of international names: a character of any other script is taken as it is, and what is said
of names here holds of that mapping only as far as the tables go.

* `Letter.small`: the spelling of a character in small letters.
* `Letter.joined`: a text with its letters and the marks behind them in one.
-/

namespace Gatehouse.Letter

/-- Some capital letters: the first and the last, the distance from one to the next, and the
distance from each to its small letter. -/
structure Capitals where
  first : Nat
  last : Nat
  step : Nat
  shift : Nat

/-- The capital letters beyond ASCII. -/
def capitals : List Capitals := [
  ⟨0xC0, 0xD6, 1, 32⟩, ⟨0xD8, 0xDE, 1, 32⟩, ⟨0x100, 0x136, 2, 1⟩, ⟨0x139, 0x147, 2, 1⟩,
  ⟨0x14A, 0x176, 2, 1⟩, ⟨0x179, 0x17D, 2, 1⟩, ⟨0x1CD, 0x1DB, 2, 1⟩, ⟨0x1DE, 0x1EE, 2, 1⟩,
  ⟨0x1F8, 0x21E, 2, 1⟩, ⟨0x222, 0x232, 2, 1⟩, ⟨0x388, 0x38A, 1, 37⟩, ⟨0x38E, 0x38F, 1, 63⟩,
  ⟨0x391, 0x3A1, 1, 32⟩, ⟨0x3A3, 0x3AB, 1, 32⟩, ⟨0x400, 0x40F, 1, 80⟩, ⟨0x410, 0x42F, 1, 32⟩,
  ⟨0x460, 0x480, 2, 1⟩, ⟨0x48A, 0x4BE, 2, 1⟩, ⟨0x4C1, 0x4CD, 2, 1⟩, ⟨0x4D0, 0x52E, 2, 1⟩,
  ⟨0x531, 0x556, 1, 48⟩, ⟨0x1E00, 0x1E94, 2, 1⟩, ⟨0x1EA0, 0x1EFE, 2, 1⟩]

/-- Characters with a spelling of their own. -/
def spellings : List (Nat × String) := [
  (0xAA, "a"), (0xB2, "2"), (0xB3, "3"), (0xB5, "μ"), (0xB9, "1"), (0xBA, "o"), (0x130, "i\u0307"),
  (0x132, "ij"), (0x133, "ij"), (0x178, "ÿ"), (0x17F, "s"), (0x386, "ά"), (0x38C, "ό"),
  (0x1E9E, "ss"), (0x2122, "tm"), (0x2126, "ω"), (0x212A, "k"), (0x212B, "å"), (0xFB00, "ff"),
  (0xFB01, "fi"), (0xFB02, "fl")]

/-- The spelling of a character in small letters. -/
def small (c : Char) : List Char :=
  let n := c.toNat
  match spellings.find? (·.1 = n) with
  | some (_, text) => text.toList
  | none =>
    match capitals.find? fun r => r.first ≤ n ∧ n ≤ r.last ∧ (n - r.first) % r.step = 0 with
    | some r => [Char.ofNat (n + r.shift)]
    | none => [c.toLower]

/-- The marks; for each of them letters, and the same letters with the mark. -/
def marked : List (Nat × String × String) := [
  (0x300, "aeiouünеиēōwâăêôơưy", "àèìòùǜǹѐѝḕṑẁầằềồờừỳ"),
  (0x301, "aeiouyclnrszügåæø¨ϊαεηιϋουωϒгкçēïkmõōpũwâăêôơư",
    "áéíóúýćĺńŕśźǘǵǻǽǿ΅ΐάέήίΰόύώϓѓќḉḗḯḱḿṍṓṕṹẃấắếốớứ"),
  (0x302, "aeioucghjswyzạẹọ", "âêîôûĉĝĥĵŝŵŷẑậệộ"),
  (0x303, "anoiuvâăeêôơưy", "ãñõĩũṽẫẵẽễỗỡữỹ"),
  (0x304, "aeiouüäȧæǫöõȯyиуgḷṛ", "āēīōūǖǟǡǣǭȫȭȱȳӣӯḡḹṝ"),
  (0x306, "aegiouиужаеȩạ", "ăĕğĭŏŭйўӂӑӗḝặ"),
  (0x307, "cegzaobdfhmnprsśšṣtwxyſ", "ċėġżȧȯḃḋḟḣṁṅṗṙṡṥṧṩṫẇẋẏẛ"),
  (0x308, "aeiouyιυϒеіаәжзиоөэучыhõūwxt", "äëïöüÿϊϋϔёїӓӛӝӟӥӧӫӭӱӵӹḧṏṻẅẍẗ"),
  (0x309, "aâăeêioôơuưy", "ảẩẳẻểỉỏổởủửỷ"),
  (0x30A, "auwy", "åůẘẙ"),
  (0x30B, "ouу", "őűӳ"),
  (0x30C, "cdelnrstzaiouügkʒjh", "čďěľňřšťžǎǐǒǔǚǧǩǯǰȟ"),
  (0x30F, "aeioruѵ", "ȁȅȉȍȑȕѷ"),
  (0x311, "aeioru", "ȃȇȋȏȓȗ"),
  (0x31B, "ou", "ơư"),
  (0x323, "bdhklmnrstvwzaeioơuưy", "ḅḍḥḳḷṃṇṛṣṭṿẉẓạẹịọợụựỵ"),
  (0x324, "u", "ṳ"),
  (0x325, "a", "ḁ"),
  (0x326, "st", "șț"),
  (0x327, "cgklnrstedh", "çģķļņŗşţȩḑḩ"),
  (0x328, "aeiuo", "ąęįųǫ"),
  (0x32D, "delntu", "ḓḙḽṋṱṷ"),
  (0x32E, "h", "ḫ"),
  (0x330, "eiu", "ḛḭṵ"),
  (0x331, "bdklnrtzh", "ḇḏḵḻṉṟṯẕẖ")]

/-- A letter and a mark behind it as one character. -/
def join? (letter mark : Char) : Option Char := do
  let (_, plain, whole) ← marked.find? (·.1 = mark.toNat)
  let (_, c) ← (plain.toList.zip whole.toList).find? (·.1 = letter)
  return c

/-- A text with its letters and the marks behind them in one. -/
def joined (s : List Char) : List Char :=
  let add (before : List Char) (c : Char) : List Char :=
    match before with
    | [] => [c]
    | letter :: rest =>
      match join? letter c with
      | some whole => whole :: rest
      | none => c :: before
  (s.foldl add []).reverse

/-- Whether a character is a mark on the one in front of it. -/
def isMark (c : Char) : Bool := 0x300 ≤ c.toNat && c.toNat ≤ 0x36F

end Gatehouse.Letter
