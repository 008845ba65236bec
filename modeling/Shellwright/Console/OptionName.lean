import Shellwright.Text.Lower
/-!
# Names of command line options

Options are listed under the first of their long names.
-/

namespace Shellwright.Console

/-- The first long name, or else the first name, or else the name of the parameter; in lower case and
without the dashes in front. -/
def primaryName (names : List String) (parameter : Option String) : String :=
  let candidate := match names.find? (·.startsWith "--") with
    | some name => name
    | none =>
      match names with
      | name :: _ => if name.isEmpty then parameter.getD "" else name
      | [] => parameter.getD ""
  String.ofList (Text.lower (candidate.toList.dropWhile (· == '-')))

end Shellwright.Console
