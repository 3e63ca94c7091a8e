import QrtEngine.Kernels.AccumulatorOverflow
import QrtEngine.Kernels.GroupedPid
import QrtEngine.Loader.TensorSlice
import QrtEngine.Core.Serialization
import QrtEngine.Core.StreamClock
import QrtEngine.Core.Frontier
import QrtEngine.Provider.Agreement
import QrtEngine.Provider.Fallback
import QrtEngine.Provider.DecodeLeaseSafety
import QrtEngine.Provider.ShadowOwnership
import QrtEngine.Provider.PrefixAtomicity
import QrtEngine.Provider.ReleaseSafety
import QrtEngine.Provider.Capacity
import QrtEngine.Provider.Verifier
import QrtEngine.Provider.DualRoutes
import QrtEngine.Bridge.Transparency
import QrtEngine.Bridge.ExactLetter
import QrtEngine.Bridge.PrefixShape
import QrtEngine.Bridge.Spans
import QrtEngine.Server.QueueAccounting
import QrtEngine.Server.ToolChoice
import QrtEngine.Server.ParseSlices
import QrtEngine.Server.ToolRoundTrip
import QrtEngine.Server.Framing
import QrtEngine.Server.ByteStream
import QrtEngine.Server.SingleBatch
import QrtEngine.Host.TopK
import QrtEngine.Host.ExpertPools
import QrtEngine.Kernels.PaletteMoe
import QrtEngine.Loader.ResidentWeights
import QrtEngine.Provider.SmoothTailRun
