/-
# Rendition.Math.MathML -- math expressions as MathML

One element for each node.  A row of one child is written as that child, and a
base with no script as the base, so grouping leaves no trace.
-/
import Rendition.Escape
import Rendition.Markup.Element
import Rendition.Math.AsciiMath
import Rendition.Tree.Inline

namespace Rendition.Math

set_option autoImplicit false

/-- An element without attributes. -/
def tagged (tag content : String) : String := Markup.element tag [] content

mutual

def Node.mathML : Node → String
  | .row [child] => child.mathML
  | .row children => tagged "mrow" (Node.mathMLAll children)
  | .identifier name => tagged "mi" (Escape.xml name)
  | .number digits => tagged "mn" (Escape.xml digits)
  | .operator symbol => tagged "mo" (Escape.xml symbol)
  | .text body => tagged "mtext" (Escape.xml body)
  | .fraction numerator denominator =>
      tagged "mfrac" (numerator.mathML ++ denominator.mathML)
  | .root radicand => tagged "msqrt" radicand.mathML
  | .scripts base (some sub) (some sup) =>
      tagged "msubsup" (base.mathML ++ sub.mathML ++ sup.mathML)
  | .scripts base (some sub) none => tagged "msub" (base.mathML ++ sub.mathML)
  | .scripts base none (some sup) => tagged "msup" (base.mathML ++ sup.mathML)
  | .scripts base none none => base.mathML

def Node.mathMLAll : List Node → String
  | [] => ""
  | node :: rest => node.mathML ++ Node.mathMLAll rest

end

/-- A `math` element around MathML, set off as a block or inside a line. -/
def mathElement (content : String) (display : Bool) : String :=
  Markup.element "math"
    [("xmlns", "http://www.w3.org/1998/Math/MathML"),
      ("display", if display then "block" else "inline")] content

/-- A math body in the grammar of `parse`. -/
def latexSource (form : MathForm) (body : String) : String :=
  match form with
  | .latex => body
  | .asciiMath => ofAsciiMath body

/-- The MathML of a math body. -/
def compile (form : MathForm) (body : String) : String := (parse (latexSource form body)).mathML

end Rendition.Math
