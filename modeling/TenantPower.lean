import TenantPower.Text
import TenantPower.Weekdays
import TenantPower.Time
import TenantPower.SleepInfo
import TenantPower.Assembler
import TenantPower.Kubectl
import TenantPower.WeekdaySpec
import TenantPower.Schedule
import TenantPower.Proofs.Text
import TenantPower.Proofs.Dedup
import TenantPower.Proofs.Shift
import TenantPower.Proofs.Fold
import TenantPower.Proofs.Parser
import TenantPower.Proofs.RoundTrip
import TenantPower.Proofs.Time
import TenantPower.Proofs.Assembler
import TenantPower.Proofs.Schedule
import TenantPower.Proofs.Pairing
import TenantPower.Proofs.Kubectl
import TenantPower.Proofs.Cluster
import TenantPower.Proofs.Output
import TenantPower.Proofs.Show
import TenantPower.Proofs.Update
