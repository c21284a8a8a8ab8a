import Std.Data.ExtTreeSet
import JobLaunch.Resource
/-!
What a list adds: its items whose key has not been seen, each key once and in order. The
credentials and labels that a launch adds to a template's own are taken this way.
-/
namespace JobLaunch

section
variable {α κ : Type} [Ord κ] [Std.TransOrd κ]

/-- Items whose key is not in `seen`, the first of each key. -/
def novel (key : α → κ) (seen : Std.ExtTreeSet κ) : List α → List α
  | [] => []
  | x :: xs => if key x ∈ seen then novel key seen xs else x :: novel key (seen.insert (key x)) xs

end

def idDelta (assigned requested : List Id) : List Id :=
  novel id (Std.ExtTreeSet.ofList assigned) requested

/-- Requested credentials that are not assigned, compared by id. -/
def credentialDelta (assigned requested : List Credential) : List Credential :=
  novel (·.id) (Std.ExtTreeSet.ofList (assigned.map (·.id))) requested

def effectiveCredentials (assigned requested : List Credential) : List Credential :=
  assigned ++ credentialDelta assigned requested

def missingPasswords (credentials : List Credential) (supplied : Table String) : List String :=
  novel id ∅ ((credentials.flatMap (·.passwordsNeeded)).filter fun p => !supplied.contains p)

end JobLaunch
