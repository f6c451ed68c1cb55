import KubevirtUi.Peering.Fixpoint
import KubevirtUi.Peering.Frame
import KubevirtUi.Peering.Links
import KubevirtUi.Peering.Ownership
import KubevirtUi.Tenant.Reservation
import KubevirtUi.Cas.Reported
import KubevirtUi.Allocators.History
import KubevirtUi.Allocators.Around
import KubevirtUi.Folders.Serial
import KubevirtUi.Transit.Owners
import KubevirtUi.Transit.Prune
import KubevirtUi.Announce.Hops
import KubevirtUi.Snat.Shown
import KubevirtUi.Network.Record
import KubevirtUi.Watch.Converge
import KubevirtUi.Disks.Agree
import KubevirtUi.Disks.Lock
import KubevirtUi.Operations.Rollback
import KubevirtUi.Operations.Root
import KubevirtUi.Operations.Record
import KubevirtUi.Images.Resolves
import KubevirtUi.Isolation.Reasons
import KubevirtUi.SubnetAcls.Overwrites
import KubevirtUi.Vpcs.Outlives
import KubevirtUi.Access.Agree
import KubevirtUi.Access.Tenants
import KubevirtUi.Access.Confined
import KubevirtUi.Tenancy.Admission
import KubevirtUi.Tenancy.PortRuns
import KubevirtUi.Tenancy.Residue
import KubevirtUi.Tenancy.Rivals
import KubevirtUi.Folders.Orphans
import KubevirtUi.Addons.Later
import KubevirtUi.Addons.Forgets
import KubevirtUi.Transit.Odd
import KubevirtUi.Transit.Peace
import KubevirtUi.Transit.Fewest
import KubevirtUi.Workers.Rest
import KubevirtUi.Underlay.Shared
import KubevirtUi.Egress.Vacancy
import KubevirtUi.Egress.Costs
import KubevirtUi.Pool.Excluded
import KubevirtUi.Tenant.Once
import KubevirtUi.Nics.Placed
import KubevirtUi.Nics.Render
import KubevirtUi.Quotas.Child
import KubevirtUi.Quotas.Refused
import KubevirtUi.Acl.Supernet
import KubevirtUi.Nics.Unplugged
import KubevirtUi.Isolation.Adopted
import KubevirtUi.Tenant.Sizing
import KubevirtUi.Tenancy.Detach
import KubevirtUi.Egress.Pinned
import KubevirtUi.Addons.Laid
import KubevirtUi.Network.Lists
