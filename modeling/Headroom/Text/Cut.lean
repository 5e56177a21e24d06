/-!
Texts between separators.
-/
namespace Headroom.Text

/-- Cut a text at each separator. -/
def cutAt (separates : Char → Bool) (text : List Char) : List (List Char) :=
  text.foldr
    (fun c parts =>
      if separates c then [] :: parts
      else
        match parts with
        | part :: rest => (c :: part) :: rest
        | [] => [[c]])
    [[]]

/-- The parts of a text between the places of one character. -/
def parts (separator : Char) (text : String) : List String :=
  (cutAt (· == separator) text.toList).map String.ofList

end Headroom.Text
