import MultiNetPolicy.Lib.ByteString
import MultiNetPolicy.Lib.NetIP
import MultiNetPolicy.Lib.ChainMachine
import MultiNetPolicy.Nft.Basic
import MultiNetPolicy.Nft.Kernel
import MultiNetPolicy.Lib.StateExcept
import MultiNetPolicy.Nft.Conn
import MultiNetPolicy.Server.Names
import MultiNetPolicy.Server.Policy
import MultiNetPolicy.Server.State
import MultiNetPolicy.Server.Legacy
import MultiNetPolicy.Server.Render
import MultiNetPolicy.Server.Common
import MultiNetPolicy.Server.Ports
import MultiNetPolicy.Server.Peers
import MultiNetPolicy.Server.Apply
import MultiNetPolicy.Equiv.Excepts
import MultiNetPolicy.Equiv.Exec
import MultiNetPolicy.Equiv.Commit
import MultiNetPolicy.Equiv.Cleanup
import MultiNetPolicy.Equiv.Legacy
import MultiNetPolicy.Equiv.Sound
import MultiNetPolicy.Equiv.Run
import MultiNetPolicy.Equiv.Sets
import MultiNetPolicy.Equiv.Plan
import MultiNetPolicy.Equiv.Survival
import MultiNetPolicy.Equiv.Busy
import MultiNetPolicy.Equiv.Names
import MultiNetPolicy.Equiv.Shape
import MultiNetPolicy.Equiv.Chains
import MultiNetPolicy.Equiv.Calls
import MultiNetPolicy.Equiv.Sync
import MultiNetPolicy.Equiv.Entry
import MultiNetPolicy.Equiv.Blocks
import MultiNetPolicy.Equiv.Follow
import MultiNetPolicy.Equiv.Marks
import MultiNetPolicy.Equiv.Protocol
import MultiNetPolicy.Equiv.Fresh
import MultiNetPolicy.Equiv.Union
import MultiNetPolicy.Equiv.Incoming
import MultiNetPolicy.Equiv.Frame
import MultiNetPolicy.Equiv.Atomic
import MultiNetPolicy.Equiv.Grounded
import MultiNetPolicy.Equiv.Stale
import MultiNetPolicy.Equiv.Alike
import MultiNetPolicy.Equiv.Order
import MultiNetPolicy.Lib.Intervals
import MultiNetPolicy.Lib.PrefixRange
import MultiNetPolicy.Equiv.Ranges
import MultiNetPolicy.Equiv.Contents
import MultiNetPolicy.Equiv.PortRanges
import MultiNetPolicy.Equiv.Selectors
import MultiNetPolicy.Lib.CIDR
import MultiNetPolicy.Equiv.Options
import MultiNetPolicy.Controller.Events
import MultiNetPolicy.Controller.Reconciler
import MultiNetPolicy.Equiv.Interfaces
import MultiNetPolicy.Equiv.Updates
import MultiNetPolicy.Equiv.Peering
import MultiNetPolicy.Equiv.SetNames
import MultiNetPolicy.Equiv.SetUses
import MultiNetPolicy.Equiv.Quiet
import MultiNetPolicy.Equiv.Comments
import MultiNetPolicy.Equiv.Fixpoint
import MultiNetPolicy.Equiv.Steady
import MultiNetPolicy.Equiv.Exposure
import MultiNetPolicy.Equiv.Meaning
import MultiNetPolicy.Equiv.Served
import MultiNetPolicy.Equiv.Enforced
import MultiNetPolicy.Equiv.Installed
import MultiNetPolicy.Equiv.Effect
import MultiNetPolicy.Equiv.Node
