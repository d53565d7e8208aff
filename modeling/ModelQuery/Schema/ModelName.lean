import ModelQuery.Text.Blank
import ModelQuery.Text.Case
import ModelQuery.Text.Split
import ModelQuery.Value.Basic

/-!
# Model names

A model is known by a logical name. Whatever refers to it is brought to that name: blanks around it
go, letters become small, and a leading `model_` is dropped once, unless nothing would be left. A
class or an instance refers by the name of its class, and a value that is no text by the word for
its sort.
-/

namespace ModelQuery

/-- The word that may lead a model's name. -/
def modelMark : String := "model_"

/-- The logical name a text refers to. -/
def normalizeName (s : String) : String :=
  let name := Text.lower (Text.strip s)
  match Text.afterStart? modelMark name with
  | some rest => if rest = "" then name else rest
  | none => name

/-- The logical name a value refers to. -/
def modelName : Value → String
  | .text s | .declared s => normalizeName s
  | v => normalizeName v.sortName

@[simp] theorem modelName_text (s : String) : modelName (.text s) = normalizeName s := rfl

end ModelQuery
