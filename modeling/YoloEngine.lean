import YoloEngine.Queue.Delivery
import YoloEngine.Vision.Clipping
import YoloEngine.Pipeline.Order
import YoloEngine.Queue.Staleness
import YoloEngine.Foundation.Streak
import YoloEngine.Pipeline.Producer
import YoloEngine.Queue.Sharing
import YoloEngine.Pipeline.Clocks
import YoloEngine.Vision.TensorShape
import YoloEngine.Foundation.OrderStatistic
import YoloEngine.Pipeline.Statistics
import YoloEngine.Vision.RoundTrip
import YoloEngine.Vision.ClassLookup
import YoloEngine.Foundation.RowMajor
import YoloEngine.Vision.ImageProgram
import YoloEngine.Vision.Planar
import YoloEngine.Vision.Agreement
import YoloEngine.Foundation.Composition
import YoloEngine.Queue.Progress
import YoloEngine.Pipeline.Accesses
import YoloEngine.Pipeline.Moves
import YoloEngine.Pipeline.Work
import YoloEngine.Pipeline.Genuine
import YoloEngine.Pipeline.Passage
import YoloEngine.Pipeline.Shutdown
import YoloEngine.Foundation.LossyFifo
import YoloEngine.Queue.Linearization
import YoloEngine.Pipeline.Atomicity
import YoloEngine.Vision.Drawing
import YoloEngine.Pipeline.Accounts
import YoloEngine.Pipeline.CameraProgram
import YoloEngine.Pipeline.Realization
import YoloEngine.Pipeline.Screen
import YoloEngine.Pipeline.Stopping
import YoloEngine.Pipeline.Service
import YoloEngine.Foundation.ReleaseAcquire
import YoloEngine.Queue.MemoryOrders
import YoloEngine.Queue.Knowledge
import YoloEngine.Queue.Synchronization
import YoloEngine.Queue.SequentialRuns
import YoloEngine.Pipeline.Orders
import YoloEngine.Queue.Present
import YoloEngine.Pipeline.Reordering
import YoloEngine.Queue.Accounting
