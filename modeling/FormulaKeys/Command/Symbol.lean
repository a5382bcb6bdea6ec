/-!
Symbol commands: command names that stand for one literal character.
-/

set_option autoImplicit false

namespace FormulaKeys.Command.Symbol

def smallGreek : List (String × Char) :=
  [("alpha", 'α'), ("beta", 'β'), ("gamma", 'γ'), ("delta", 'δ'), ("epsilon", 'ε'),
    ("zeta", 'ζ'), ("eta", 'η'), ("theta", 'θ'), ("iota", 'ι'), ("kappa", 'κ'),
    ("lambda", 'λ'), ("mu", 'μ'), ("nu", 'ν'), ("xi", 'ξ'), ("omicron", 'ο'), ("pi", 'π'),
    ("rho", 'ρ'), ("sigma", 'σ'), ("tau", 'τ'), ("upsilon", 'υ'), ("phi", 'ϕ'), ("chi", 'χ'),
    ("psi", 'ψ'), ("omega", 'ω')]

def capitalGreek : List (String × Char) :=
  [("Alpha", 'Α'), ("Beta", 'Β'), ("Gamma", 'Γ'), ("Delta", 'Δ'), ("Epsilon", 'Ε'),
    ("Zeta", 'Ζ'), ("Eta", 'Η'), ("Theta", 'Θ'), ("Iota", 'Ι'), ("Kappa", 'Κ'),
    ("Lambda", 'Λ'), ("Mu", 'Μ'), ("Nu", 'Ν'), ("Xi", 'Ξ'), ("Omicron", 'Ο'), ("Pi", 'Π'),
    ("Rho", 'Ρ'), ("Sigma", 'Σ'), ("Tau", 'Τ'), ("Upsilon", 'Υ'), ("Phi", 'Φ'), ("Chi", 'Χ'),
    ("Psi", 'Ψ'), ("Omega", 'Ω')]

def relations : List (String × Char) :=
  [("le", '≤'), ("leq", '≤'), ("ge", '≥'), ("geq", '≥'), ("ne", '≠'), ("neq", '≠'),
    ("approx", '≈'), ("equiv", '≡'), ("sim", '∼'), ("simeq", '≃'), ("cong", '≅'),
    ("subset", '⊂'), ("subseteq", '⊆'), ("supset", '⊃'), ("supseteq", '⊇'), ("in", '∈'),
    ("notin", '∉')]

def operators : List (String × Char) :=
  [("times", '×'), ("cdot", '·'), ("div", '÷'), ("pm", '±'), ("mp", '∓'), ("cup", '∪'),
    ("cap", '∩'), ("vee", '∨'), ("wedge", '∧'), ("oplus", '⊕'), ("otimes", '⊗')]

def arrows : List (String × Char) :=
  [("leftarrow", '←'), ("rightarrow", '→'), ("uparrow", '↑'), ("downarrow", '↓'),
    ("Leftarrow", '⇐'), ("Rightarrow", '⇒'), ("leftrightarrow", '↔'), ("Leftrightarrow", '⇔'),
    ("to", '→'), ("gets", '←')]

def others : List (String × Char) :=
  [("infty", '∞'), ("partial", '∂'), ("nabla", '∇'), ("forall", '∀'), ("exists", '∃'),
    ("empty", '∅'), ("emptyset", '∅'), ("angle", '∠'), ("therefore", '∴'), ("because", '∵')]

def table : List (String × Char) :=
  smallGreek ++ capitalGreek ++ relations ++ operators ++ arrows ++ others

/-- The character that a symbol command stands for. -/
def ofName? (name : String) : Option Char :=
  table.lookup name

end FormulaKeys.Command.Symbol
