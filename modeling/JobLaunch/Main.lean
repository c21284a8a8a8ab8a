import JobLaunch.CommandLine.Run
/-!
The program. It finds out the environment and reads the files of the command; all else is decided by
`Invocation.ofArguments` and `Invocation.run`.
-/
namespace JobLaunch.Program

def usage : String := Report.lines [
  "Usage: tarmac [OPTIONS] COMMAND",
  "",
  "Commands:",
  "  template check TEMPLATE                  problems and prompts of a template",
  "  template resolve TEMPLATE [-r REQUEST]   what a launch request comes to",
  "  template plan TEMPLATE [-r REQUEST]      the jobs that a launch creates",
  "  relaunch check TEMPLATE LAUNCH_CONFIG    whether a job can be relaunched",
  "  vars parse FILE                          variables in JSON or YAML as a mapping",
  "  vars prompts LAUNCH_CONFIG               what a job was launched with",
  "",
  "Options:",
  "  --max-forks NUMBER               highest number of forks, 0 for any",
  "  --schedule-max-jobs NUMBER       active jobs of a template before launches are refused",
  "  --global-instance-groups IDS     instance groups for jobs that have no others",
  "  --json                           print JSON",
  "  -h, --help                       print this text"]

def environment : IO (Table String) := do
  let names :=
    [Config.maxForksVariable, Config.scheduleMaxJobsVariable, Config.globalInstanceGroupsVariable]
  let entries ← names.filterMapM fun name => do
    return (← IO.getEnv name).map fun value => (name, value)
  return Table.ofEntries entries

/-- The files at some paths, without those that cannot be read. -/
def readFiles (paths : List String) : IO Files := do
  let entries ← paths.filterMapM fun (path : String) => do
    try
      return some (path, ← IO.FS.readFile path)
    catch _ => return none
  return Table.ofEntries entries

/-- An id of random bits, with the bits of its version and variant in their places. -/
def randomId (bits : Nat) : Id :=
  ⟨BitVec.ofNat 48 (bits >>> 74) ++ 4#4 ++ BitVec.ofNat 12 (bits >>> 62) ++ 2#2 ++
    BitVec.ofNat 62 bits⟩

/-- Random ids for a launch. No report shows its time. -/
def stamp : IO Stamp := do
  let bytes ← IO.getRandomBytes 16
  let bits := bytes.data.foldl (fun n b => n * 256 + b.toNat) 0
  return {
    now := .ofSeconds 0
    workflowId := randomId bits
    jobId := fun n => randomId (bits + n + 1) }

end JobLaunch.Program

open JobLaunch

/-- Runs the program. Its code is 1 or 101 when a command has no answer, and 2 when there is no
command. -/
def main (arguments : List String) : IO UInt32 := do
  match Invocation.ofArguments arguments (← Program.environment) with
  | .error .help =>
    IO.print Program.usage
    return 0
  | .error .misuse =>
    IO.eprint Program.usage
    return 2
  | .ok invocation =>
    let files ← Program.readFiles invocation.command.paths
    match invocation.run files (← Program.stamp) with
    | .ok output =>
      IO.print output
      return 0
    | .error e =>
      IO.print e.printed
      IO.eprintln ("Error: " ++ e.message)
      return e.code
