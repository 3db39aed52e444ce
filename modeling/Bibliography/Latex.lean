import Bibliography.Text.Basic

/-!
Spelling of characters beyond ASCII in LaTeX. The table is applied row by row,
each row over the whole text: first the rows for a letter followed by a
combining mark, then the rows for single characters. Characters without a row
stay as they are. It is not claimed that every spelling can be typeset.
-/

namespace Bibliography.Latex

def group (body : Text) : Text := '{' :: (body ++ ['}'])

def plain (spelling : String) : Text := spelling.toList

def command (name : String) : Text := group ('\\' :: name.toList)

def formula (name : String) : Text := '$' :: '\\' :: (name.toList ++ ['$'])

def accent (mark letter : String) : Text := group ('\\' :: (mark.toList ++ letter.toList))

/-- An accent that takes its letter in braces. -/
def wrapped (mark letter : String) : Text :=
  group ('\\' :: (mark.toList ++ group letter.toList))

/-- A combining mark with the accent that spells it. -/
structure Mark where
  char : Char
  accent : String
  braced : Bool

def Mark.spell (mark : Mark) (letter : Char) : Text :=
  group ('\\' :: (mark.accent.toList ++ if mark.braced then group [letter] else [letter]))

def marks : List Mark :=
  [⟨'\u0300', "`", false⟩, ⟨'\u0301', "'", false⟩, ⟨'\u0302', "^", false⟩,
   ⟨'\u0303', "~", false⟩, ⟨'\u0304', "=", false⟩, ⟨'\u0306', "u", true⟩, ⟨'\u0307', ".", false⟩,
   ⟨'\u0308', "\"", false⟩, ⟨'\u030a', "r", true⟩, ⟨'\u030b', "H", true⟩, ⟨'\u030c', "v", true⟩,
   ⟨'\u0327', "c", true⟩, ⟨'\u0328', "k", true⟩]

set_option maxRecDepth 2000 in
def symbols : List (Char × Text) :=
  [('À', accent "`" "A"), ('Á', accent "'" "A"), ('Â', accent "^" "A"), ('Ã', accent "~" "A"),
   ('Ä', accent "\"" "A"), ('Å', command "AA"), ('Æ', command "AE"), ('Ç', wrapped "c" "C"),
   ('È', accent "`" "E"), ('É', accent "'" "E"), ('Ê', accent "^" "E"), ('Ë', accent "\"" "E"),
   ('Ì', accent "`" "I"), ('Í', accent "'" "I"), ('Î', accent "^" "I"), ('Ï', accent "\"" "I"),
   ('Ð', command "DH"), ('Ñ', accent "~" "N"), ('Ò', accent "`" "O"), ('Ó', accent "'" "O"),
   ('Ô', accent "^" "O"), ('Õ', accent "~" "O"), ('Ö', accent "\"" "O"), ('Ø', command "O"),
   ('Ù', accent "`" "U"), ('Ú', accent "'" "U"), ('Û', accent "^" "U"), ('Ü', accent "\"" "U"),
   ('Ý', accent "'" "Y"), ('Þ', command "TH"), ('ß', command "ss"), ('à', accent "`" "a"),
   ('á', accent "'" "a"), ('â', accent "^" "a"), ('ã', accent "~" "a"), ('ä', accent "\"" "a"),
   ('å', command "aa"), ('æ', command "ae"), ('ç', wrapped "c" "c"), ('è', accent "`" "e"),
   ('é', accent "'" "e"), ('ê', accent "^" "e"), ('ë', accent "\"" "e"), ('ì', accent "`" "\\i"),
   ('í', accent "'" "\\i"), ('î', accent "^" "\\i"), ('ï', accent "\"" "\\i"), ('ð', command "dh"),
   ('ñ', accent "~" "n"), ('ò', accent "`" "o"), ('ó', accent "'" "o"), ('ô', accent "^" "o"),
   ('õ', accent "~" "o"), ('ö', accent "\"" "o"), ('ø', command "o"), ('ù', accent "`" "u"),
   ('ú', accent "'" "u"), ('û', accent "^" "u"), ('ü', accent "\"" "u"), ('ý', accent "'" "y"),
   ('þ', command "th"), ('ÿ', accent "\"" "y"), ('Ā', accent "=" "A"), ('ā', accent "=" "a"),
   ('Ă', wrapped "u" "A"), ('ă', wrapped "u" "a"), ('Ą', wrapped "k" "A"), ('ą', wrapped "k" "a"),
   ('Ć', accent "'" "C"), ('ć', accent "'" "c"), ('Č', wrapped "v" "C"), ('č', wrapped "v" "c"),
   ('Ď', wrapped "v" "D"), ('ď', wrapped "v" "d"), ('Đ', command "DJ"), ('đ', command "dj"),
   ('Ē', accent "=" "E"), ('ē', accent "=" "e"), ('Ė', accent "." "E"), ('ė', accent "." "e"),
   ('Ę', wrapped "k" "E"), ('ę', wrapped "k" "e"), ('Ě', wrapped "v" "E"), ('ě', wrapped "v" "e"),
   ('Ğ', wrapped "u" "G"), ('ğ', wrapped "u" "g"), ('Ī', accent "=" "I"), ('ī', accent "=" "\\i"),
   ('İ', accent "." "I"), ('ı', command "i"), ('Ł', command "L"), ('ł', command "l"),
   ('Ń', accent "'" "N"), ('ń', accent "'" "n"), ('Ň', wrapped "v" "N"), ('ň', wrapped "v" "n"),
   ('Ō', accent "=" "O"), ('ō', accent "=" "o"), ('Ő', wrapped "H" "O"), ('ő', wrapped "H" "o"),
   ('Œ', command "OE"), ('œ', command "oe"), ('Ř', wrapped "v" "R"), ('ř', wrapped "v" "r"),
   ('Ś', accent "'" "S"), ('ś', accent "'" "s"), ('Ş', wrapped "c" "S"), ('ş', wrapped "c" "s"),
   ('Š', wrapped "v" "S"), ('š', wrapped "v" "s"), ('Ţ', wrapped "c" "T"), ('ţ', wrapped "c" "t"),
   ('Ť', wrapped "v" "T"), ('ť', wrapped "v" "t"), ('Ū', accent "=" "U"), ('ū', accent "=" "u"),
   ('Ů', wrapped "r" "U"), ('ů', wrapped "r" "u"), ('Ű', wrapped "H" "U"), ('ű', wrapped "H" "u"),
   ('Ź', accent "'" "Z"), ('ź', accent "'" "z"), ('Ż', accent "." "Z"), ('ż', accent "." "z"),
   ('Ž', wrapped "v" "Z"), ('ž', wrapped "v" "z"), ('ɛ', formula "varepsilon"),
   ('α', formula "alpha"), ('β', formula "beta"), ('γ', formula "gamma"), ('δ', formula "delta"),
   ('ε', formula "epsilon"), ('ζ', formula "zeta"), ('η', formula "eta"), ('θ', formula "theta"),
   ('ι', formula "iota"), ('κ', formula "kappa"), ('λ', formula "lambda"), ('μ', formula "mu"),
   ('ν', formula "nu"), ('ξ', formula "xi"), ('π', formula "pi"), ('ρ', formula "rho"),
   ('σ', formula "sigma"), ('τ', formula "tau"), ('υ', formula "upsilon"), ('φ', formula "phi"),
   ('χ', formula "chi"), ('ψ', formula "psi"), ('ω', formula "omega"), ('Γ', formula "Gamma"),
   ('Δ', formula "Delta"), ('Θ', formula "Theta"), ('Λ', formula "Lambda"), ('Ξ', formula "Xi"),
   ('Π', formula "Pi"), ('Σ', formula "Sigma"), ('Φ', formula "Phi"), ('Ψ', formula "Psi"),
   ('Ω', formula "Omega"), ('—', plain "---"), ('–', plain "--"), ('\u2010', plain "-"),
   ('\u2011', plain "-"), ('‘', plain "`"), ('’', plain "'"), ('“', plain "``"),
   ('”', plain "''"), ('…', command "ldots"), ('«', command "guillemotleft"),
   ('»', command "guillemotright"), ('\u00a0', plain "~"), ('¡', command "textexclamdown"),
   ('¿', command "textquestiondown"), ('©', command "textcopyright"),
   ('®', command "textregistered"), ('™', command "texttrademark"), ('§', command "S"),
   ('¶', command "P"), ('°', command "textdegree"), ('±', formula "pm"), ('×', formula "times"),
   ('÷', formula "div"), ('£', command "pounds"), ('€', command "texteuro"), ('µ', formula "mu"),
   ('·', formula "cdot"), ('≤', formula "leq"), ('≥', formula "geq"), ('≈', formula "approx"),
   ('∞', formula "infty"), ('→', formula "rightarrow")]

def Mark.replace (mark : Mark) : Text → Text
  | [] => []
  | [char] => [char]
  | char :: next :: rest =>
      if char.isAlpha && next == mark.char then mark.spell char ++ mark.replace rest
      else char :: mark.replace (next :: rest)

def replaceSymbol (symbol : Char × Text) (text : Text) : Text :=
  text.flatMap fun char => if char = symbol.1 then symbol.2 else [char]

def escape (text : Text) : Text :=
  symbols.foldl (fun text symbol => replaceSymbol symbol text)
    (marks.foldl (fun text mark => mark.replace text) text)

end Bibliography.Latex
