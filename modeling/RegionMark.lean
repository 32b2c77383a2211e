import RegionMark.Phase
import RegionMark.Fault
import RegionMark.Word
import RegionMark.Slot
import RegionMark.Config
import RegionMark.Chunk.Bucket
import RegionMark.Entry
import RegionMark.Chunk.Allocator
import RegionMark.MarkStack
import RegionMark.Script.Refusal
import RegionMark.Script.Geometry
import RegionMark.Script.Run
import RegionMark.Script.Stack
import RegionMark.Bitmap
import RegionMark.Script.Marks
import RegionMark.TaskQueue
import RegionMark.Script.Deque
import RegionMark.Stats
import RegionMark.Script.Liveness
import RegionMark.Satb
import RegionMark.Script.Snapshot
import RegionMark.RootRegions
import RegionMark.RootRegions.Claiming
import RegionMark.Script.Roots
import RegionMark.Sync
import RegionMark.Script.Rendezvous
import RegionMark.Heap.Basic
import RegionMark.Heap.Graph
import RegionMark.Engine.Metrics
import RegionMark.Engine.State
import RegionMark.Engine.FingerRace
import RegionMark.Engine.Task
import RegionMark.Engine.Step
import RegionMark.Engine.Parallel
import RegionMark.Engine.Query
import RegionMark.Engine.Cycle
import RegionMark.Script.Build
import RegionMark.Script.Heap
import RegionMark.Json.Basic
import RegionMark.Json.Read
import RegionMark.Text.WhiteSpace
import RegionMark.Protocol.Fields
import RegionMark.Protocol.Reply
import RegionMark.Protocol.Setup
import RegionMark.Protocol.Stack
import RegionMark.Protocol.Marks
import RegionMark.Protocol.Deque
import RegionMark.Protocol.Liveness
import RegionMark.Protocol.Snapshot
import RegionMark.Protocol.Roots
import RegionMark.Protocol.Rendezvous
import RegionMark.Protocol.Heap
import RegionMark.Protocol.Answer
import RegionMark.Proofs.Chunk.Growth
import RegionMark.Proofs.Chunk.Bucket
import RegionMark.Proofs.Chunk.Sizing
import RegionMark.Proofs.MarkStack.Lists
import RegionMark.Proofs.MarkStack.Ownership
import RegionMark.Proofs.MarkStack.Refinement
import RegionMark.Proofs.Engine.Triple
import RegionMark.Proofs.Engine.Keeps
import RegionMark.Proofs.Engine.Phases
import RegionMark.Proofs.Engine.Operations
import RegionMark.Proofs.Engine.Steady
import RegionMark.Proofs.Bitmap.Weight
import RegionMark.Proofs.Bitmap.Refinement
import RegionMark.Proofs.Engine.Run
import RegionMark.Proofs.Engine.Exhaustion
import RegionMark.Proofs.Engine.CleanStart
import RegionMark.Proofs.Stats.Cache
import RegionMark.Proofs.Engine.Ledger
import RegionMark.Proofs.Engine.Flush
import RegionMark.Proofs.Engine.Accounting
import RegionMark.Proofs.Engine.Discipline
import RegionMark.Proofs.TaskQueue.Refinement
import RegionMark.Proofs.Stats.Conservation
import RegionMark.Proofs.Heap.Layout
import RegionMark.Proofs.Satb.Fifo
import RegionMark.Proofs.Engine.Claims
import RegionMark.Proofs.Scan.Slices
import RegionMark.Proofs.Engine.Stealing
import RegionMark.Proofs.Roots.ClaimOnce
import RegionMark.Proofs.Restart.Quiet
import RegionMark.Proofs.Restart.Drain
import RegionMark.Proofs.Restart.Steps
import RegionMark.Proofs.Restart.Crew
import RegionMark.Proofs.Restart.Phases
import RegionMark.Proofs.Restart.Growth
import RegionMark.Proofs.Restart.Progress
