import Persistency.Builder
import Persistency.Step
import Persistency.Run
import Persistency.Registry
import Persistency.Cache
import Persistency.Provenance
import Persistency.Lifetime
import Persistency.OwnedBuilder
import Persistency.Threads
import Persistency.Checksum
import Persistency.Interleaving
