import ShadowTrace.Probe
import ShadowTrace.Proofs.Aliases
import ShadowTrace.Proofs.Boundary
import ShadowTrace.Proofs.Callers
import ShadowTrace.Proofs.Dumps
import ShadowTrace.Proofs.Legible
import ShadowTrace.Proofs.Lifetime
import ShadowTrace.Proofs.Monotone
import ShadowTrace.Proofs.Nearest
import ShadowTrace.Proofs.Parts
import ShadowTrace.Proofs.Precedence
import ShadowTrace.Proofs.Refusal
import ShadowTrace.Proofs.Returns
import ShadowTrace.Proofs.Seeding
import ShadowTrace.Proofs.Separation
import ShadowTrace.Proofs.Skipping
import ShadowTrace.Proofs.ThreadFiles
import ShadowTrace.Proofs.TopLevel
import ShadowTrace.Settings.Load
