/-
# Rendition.Math.Symbol -- named symbols

The Greek letters and the operators that a backslash command may name.  Several
names may share one symbol; no name has two.
-/
namespace Rendition.Math

set_option autoImplicit false

def symbols : List (String × String) := [
    ("alpha", "α"), ("beta", "β"), ("gamma", "γ"), ("delta", "δ"), ("epsilon", "ε"),
    ("varepsilon", "ε"), ("zeta", "ζ"), ("eta", "η"), ("theta", "θ"), ("vartheta", "ϑ"),
    ("iota", "ι"), ("kappa", "κ"), ("lambda", "λ"), ("mu", "μ"), ("nu", "ν"), ("xi", "ξ"),
    ("pi", "π"), ("rho", "ρ"), ("sigma", "σ"), ("tau", "τ"), ("upsilon", "υ"), ("phi", "ϕ"),
    ("varphi", "φ"), ("chi", "χ"), ("psi", "ψ"), ("omega", "ω"), ("Gamma", "Γ"), ("Delta", "Δ"),
    ("Theta", "Θ"), ("Lambda", "Λ"), ("Xi", "Ξ"), ("Pi", "Π"), ("Sigma", "Σ"), ("Upsilon", "Υ"),
    ("Phi", "Φ"), ("Psi", "Ψ"), ("Omega", "Ω"), ("infty", "∞"), ("pm", "±"), ("mp", "∓"),
    ("times", "×"), ("div", "÷"), ("cdot", "⋅"), ("leq", "≤"), ("le", "≤"), ("geq", "≥"),
    ("ge", "≥"), ("neq", "≠"), ("ne", "≠"), ("approx", "≈"), ("equiv", "≡"), ("sum", "∑"),
    ("prod", "∏"), ("int", "∫"), ("oint", "∮"), ("partial", "∂"), ("nabla", "∇"), ("in", "∈"),
    ("notin", "∉"), ("subset", "⊂"), ("cup", "∪"), ("cap", "∩"), ("forall", "∀"), ("exists", "∃"),
    ("to", "→"), ("rightarrow", "→"), ("leftarrow", "←"), ("Rightarrow", "⇒"), ("ldots", "…"),
    ("cdots", "⋯")]

def symbol? (name : String) : Option String := symbols.lookup name

end Rendition.Math
