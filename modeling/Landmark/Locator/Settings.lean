import Landmark.Operator.Registry
import Landmark.Signature.Search

/-!
# Settings of a locator

How a locator searches and reads patterns, and which operators it knows. Without a registry of its
own it uses the standard one, which no evaluation changes.
-/

namespace Landmark

/-- How a locator works. -/
structure Settings where
  algorithm : Algorithm := Algorithm.standard
  format : SignatureFormat := {}
  /-- A matcher that is used in place of the algorithm. -/
  matcher : Option Matcher := none
  registry : Option Registry := none

namespace Settings

/-- The search for a signature. -/
def search (settings : Settings) (signature : Signature) : Search :=
  ⟨signature, settings.matcher.getD settings.algorithm.apply⟩

/-- The operators that formulas may use. -/
def operators (settings : Settings) : Registry :=
  settings.registry.getD Registry.standard

/-- The settings as text; of a matcher only whether there is one. -/
def text (settings : Settings) : String :=
  "ResolverConfig \x7b algorithm: " ++ settings.algorithm.variantName ++ ", pattern_format: "
    ++ settings.format.description ++ ", custom_algorithm: " ++ toString settings.matcher.isSome
    ++ ", registry: "
    ++ (settings.registry.map fun registry => "Some(" ++ registry.text ++ ")").getD "None"
    ++ " \x7d"

end Settings

end Landmark
