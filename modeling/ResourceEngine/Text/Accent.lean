/-!
# Accents

Latin letters with accents are folded to the letters they are drawn from, and ligatures to the two
letters they join. Every other character stays as it is.
-/

namespace ResourceEngine.Text

/-- Each base text with the accented letters that fold to it. -/
def accents : List (String × List Char) :=
  [ ("A", "ÀÁÂÃÄÅĀĂĄ".toList), ("a", "àáâãäåāăą".toList), ("AE", ['Æ']), ("ae", ['æ']),
    ("C", "ÇĆĈĊČ".toList), ("c", "çćĉċč".toList), ("D", "ĎĐÐ".toList), ("d", "ďđð".toList),
    ("E", "ÈÉÊËĒĔĖĘĚ".toList), ("e", "èéêëēĕėęě".toList), ("G", "ĜĞĠĢ".toList),
    ("g", "ĝğġģ".toList), ("H", "ĤĦ".toList), ("h", "ĥħ".toList), ("I", "ÌÍÎÏĨĪĬĮİ".toList),
    ("i", "ìíîïĩīĭįı".toList), ("J", ['Ĵ']), ("j", ['ĵ']), ("K", ['Ķ']), ("k", ['ķ']),
    ("L", "ĹĻĽĿŁ".toList), ("l", "ĺļľŀł".toList), ("N", "ÑŃŅŇ".toList), ("n", "ñńņň".toList),
    ("O", "ÒÓÔÕÖØŌŎŐ".toList), ("o", "òóôõöøōŏő".toList), ("OE", ['Œ']), ("oe", ['œ']),
    ("R", "ŔŖŘ".toList), ("r", "ŕŗř".toList), ("S", "ŚŜŞŠ".toList), ("s", "śŝşš".toList),
    ("ss", ['ß']), ("T", "ŢŤŦ".toList), ("t", "ţťŧ".toList), ("U", "ÙÚÛÜŨŪŬŮŰŲ".toList),
    ("u", "ùúûüũūŭůűų".toList), ("W", ['Ŵ']), ("w", ['ŵ']), ("Y", "ÝŸŶ".toList),
    ("y", "ýÿŷ".toList), ("Z", "ŹŻŽ".toList), ("z", "źżž".toList) ]

/-- The text a character folds to. -/
def foldAccent (c : Char) : String :=
  match accents.find? (·.2.contains c) with
  | some (base, _) => base
  | none => String.singleton c

/-- A text with its accents folded. -/
def unaccent (s : String) : String := String.join (s.toList.map foldAccent)

end ResourceEngine.Text
