import TimeMachine.Concurrent.ByUnique
import TimeMachine.Concurrent.Collection
import TimeMachine.Concurrent.Creation
import TimeMachine.Concurrent.Uniques
import TimeMachine.Client.Lifetime
import TimeMachine.Client.Ranges
import TimeMachine.Concurrent.Handles
import TimeMachine.Server.Durability
import TimeMachine.Server.SampledRecords
import TimeMachine.Server.StatusLines
import TimeMachine.TsClient.Decoding
import TimeMachine.TsClient.Payload
import TimeMachine.Concurrent.Coverage
import TimeMachine.Server.Batches
import TimeMachine.Server.Cancellation
import TimeMachine.Server.DrawRange
import TimeMachine.Server.Uniformity
import TimeMachine.TsClient.Acceptance
import TimeMachine.TsClient.Grouping
import TimeMachine.TsClient.Rejection
import TimeMachine.Server.HandlerFactory
import TimeMachine.Server.StoredKeys
import TimeMachine.TsClient.Retrieval
import TimeMachine.Server.RangeStreams
import TimeMachine.Server.SampleStreams
import TimeMachine.Server.ReadSources
import TimeMachine.Server.Startup
import TimeMachine.Server.SampledPeriods
import TimeMachine.Server.Recovery
import TimeMachine.Interleaved.Line
import TimeMachine.Interleaved.Sources
import TimeMachine.Interleaved.Turns
import TimeMachine.Base.Turns
