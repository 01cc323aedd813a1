/-!
# Letter case

Names are compared without regard to the case of the letters A to Z; all other characters stand
for themselves.
-/

namespace FilterSelect.Text

/-- Whether two texts are equal once their ASCII letters are lower case. -/
def sameIgnoringCase (a b : String) : Bool := a.toLower == b.toLower

end FilterSelect.Text
