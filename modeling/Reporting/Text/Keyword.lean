import Reporting.Text.Blank
import Reporting.Text.UpperCase

/-!
# Keywords

The keywords of a report (operations, operators, directions) are read without regard to case and
to the blanks around and inside them.
-/

namespace Reporting.Text

/-- The keyword in upper case, with single spaces between its words. -/
def keyword (text : String) : String := upper (collapse text)

end Reporting.Text
