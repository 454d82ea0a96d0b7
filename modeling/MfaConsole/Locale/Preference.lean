import MfaConsole.Number.Single
import MfaConsole.Text.Blank
import MfaConsole.Text.Pieces

/-! The language a reader prefers, from a list of language tags such as `de, en;q=0.5`. A tag may be followed by
    its quality; one without quality, or with a quality that is no number, has the quality one. -/

namespace MfaConsole
namespace Locale

/-- A language on offer, with its quality. -/
structure Offer where
  tag : List Char
  quality : Number.Single

def anyTag : List Char := ['*']

/-- The quality among the parameters of a tag: what the first that begins with `q=` stands for. -/
def qualityOf (parameters : List (List Char)) : Number.Single :=
  ((parameters.findSome? (Text.after? ['q', '='])).bind Number.Single.ofChars?).getD .one

/-- The offer of an entry; a tag that is empty or stands for any language is none, nor is one whose quality is not
    above zero. -/
def Offer.ofEntry? (entry : List Char) : Option Offer :=
  match (Text.pieces ';' entry).map Text.trimChars with
  | [] => none
  | tag :: parameters =>
    let quality := qualityOf parameters
    if tag = [] ∨ tag = anyTag ∨ !quality.isPositive then none else some { tag, quality }

/-- The better one of an offer and one after it; of two of equal quality that is the first. -/
def Offer.better : Option Offer → Offer → Option Offer
  | none, o => some o
  | some best, o => if best.quality.below o.quality then some o else some best

def offers (header : List Char) : List Offer :=
  (Text.pieces ',' header).filterMap Offer.ofEntry?

/-- The tag of the first of the best offers, empty without an offer. -/
def preferred (header : List Char) : String :=
  ((offers header).foldl Offer.better none).elim "" fun o => String.ofList o.tag

end Locale
end MfaConsole
