import JobLaunch.Config
import JobLaunch.Job
/-!
Admission: a job template may not have too many jobs that have not ended.
-/
namespace JobLaunch

def countActive (jobs : List Job) (templateId : Id) : Nat :=
  (jobs.filter fun j => j.templateId == templateId && j.status.isActive).length

/-- Whether a template with `active` jobs that have not ended may not be launched. System templates
always may. -/
def Template.isBlocked (t : Template) (maxJobs : UInt64) (active : Nat) : Bool :=
  match t with
  | .job _ => maxJobs.toNat ≤ active
  | .system _ => false

end JobLaunch
