import PcrOracle.EventLog.Algorithms
import PcrOracle.EventLog.Invariants
import PcrOracle.EventLog.Soundness
import PcrOracle.EventLog.Systemd
import PcrOracle.Policy.Commands
import PcrOracle.Policy.PcrRead
import PcrOracle.Policy.Rsa
import PcrOracle.SdBoot.PolicyFile
import PcrOracle.SdBoot.TokenId
import PcrOracle.SdBoot.VercmpTermination
import PcrOracle.SdBoot.VersionOrder
import PcrOracle.SdBoot.NextKernel
