import Irods.TicketLimits
import Irods.GenQuery2Injection
import Irods.ExecCmdArg
import Irods.PhysicalPathRegistration
import Irods.VaultPath
import Irods.ReplicaCreate
import Irods.QueryIterator
import Irods.AtomicPermission
import Irods.AuthSoundness
import Irods.GenQuery1Isolation
import Irods.GenQuery1Shape
import Irods.ParallelTransfer
import Irods.DelayTime
import Irods.RecoveryChain
import Irods.RuleSplit
import Irods.ReplicaAccessTable
import Irods.TransferRestart
import Irods.PackedOutput
import Irods.RodsPathResolve
import Irods.UnpackMissing
import Irods.PackRoundTrip
import Irods.XmlEntities
import Irods.UnpackSizes
import Irods.GenQuery2Tables
import Irods.LockTrace
import Irods.PublishCatalog
import Irods.FixedBufferReuse
import Irods.PathIteration
import Irods.PathOrder
import Irods.PathRelative
import Irods.Serialization
import Irods.KvpString
import Irods.KeyVal
import Irods.ObfuscationByKey
import Irods.CommandLinePath
import Irods.RepeatUntil
import Irods.GenQuery1Operator
import Irods.AccessCache
import Irods.RuleAlternatives
import Irods.RootCollection
import Irods.LockRelease
import Irods.ReplicationVotes
import Irods.QuotaHistory
import Irods.ResourceMaps
import Irods.ResultPages
import Irods.PasswordHash
import Irods.RegionAlloc
import Irods.PathPrefix
import Irods.HierarchyParser
import Irods.ReplicaVoting
import Irods.StatementSlots
import Irods.MspKeyVal
import Irods.TicketBytes
