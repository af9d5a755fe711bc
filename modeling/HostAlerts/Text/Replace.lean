import HostAlerts.Text.Class

/-!
# Replacing a phrase

Every occurrence of a phrase is replaced from left to right; occurrences do not overlap, and what was put in
is not looked at again.
-/

namespace HostAlerts.Text

/-- Replaces the occurrences of a phrase; `fuel` bounds the number of steps. -/
def replaceWith (fuel : Nat) (phrase value : List Char) : List Char → List Char
  | [] => []
  | c :: rest =>
    match fuel with
    | 0 => c :: rest
    | fuel + 1 =>
      if startsWith (c :: rest) phrase then
        value ++ replaceWith fuel phrase value ((c :: rest).drop phrase.length)
      else c :: replaceWith fuel phrase value rest

/-- The text with every occurrence of the phrase replaced by the value. -/
def replace (phrase value text : String) : String :=
  String.ofList (replaceWith text.toList.length phrase.toList value.toList text.toList)

end HostAlerts.Text
