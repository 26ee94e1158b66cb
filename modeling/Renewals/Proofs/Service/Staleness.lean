import Renewals.Proofs.Service.Coherence
/-! How old an entry can be that the service hands out, whatever fails on the way. -/
namespace Renewals.Service

section
variable (service : Request → Task Reply)

end

section
variable {calm : Prop} {p : Policy} {past : List Deployment} {d : Deployment} {id : Int}

end

end Renewals.Service
