import TemplateAssist.Source.ClassHeader
import TemplateAssist.Source.Methods

/-!
# Signatures of a class file

* `signatures?` — the first class of a text, with every property and method of the text.  A text
  without a class has no signatures.
-/

namespace TemplateAssist.Source

/-- `extract`.  The signatures that a class file declares. -/
def signatures? (t : Text) : Option Signatures :=
  (classHeader? t).map fun header =>
    ⟨header.name, header.parent, properties t header.name, methods t header.name⟩

end TemplateAssist.Source
