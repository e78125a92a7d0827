import Endendend.Foundation.Runs
import Endendend.Foundation.Network
import Endendend.Foundation.Text
import Endendend.Foundation.Decimal
import Endendend.Foundation.Json
import Endendend.Foundation.OrderedMap
import Endendend.Foundation.SortedPlace
import Endendend.Foundation.GraphSearch
import Endendend.Foundation.Overwrites
import Endendend.Foundation.RunningMax
import Endendend.Foundation.HashChain
import Endendend.Vertex.StableStringify
import Endendend.Vertex.MissionLedger
import Endendend.Vertex.TamperEvidence
import Endendend.Foundation.Outbox
import Endendend.Foundation.OwnKeys
import Endendend.Foundation.Coerce
import Endendend.Vertex.MissionPhases
import Endendend.Vertex.Replay
import Endendend.Vertex.MissionReplayer
import Endendend.Vertex.ReplayReports
import Endendend.Vertex.ConsensusGateway
import Endendend.Vertex.PhaseLegality
import Endendend.Vertex.BatchOrder
import Endendend.Vertex.ConnectivityGraph
import Endendend.Vertex.BidScorer
import Endendend.Vertex.TaskOrchestrator
import Endendend.Vertex.RealFallbacks
import Endendend.Vertex.FailedWinners
import Endendend.Tashi.StableStringify
import Endendend.Tashi.SharedMap
import Endendend.Tashi.MapKnowledge
import Endendend.Tashi.DeltaExport
import Endendend.Tashi.MapDeltaCoordinator
import Endendend.Tashi.AntiEntropy
import Endendend.Tashi.MergeTwice
import Endendend.Tashi.MissionMachine
import Endendend.Tashi.AbsorbingPhases
import Endendend.Tashi.ReadModel
import Endendend.Tashi.NodeTelemetry
import Endendend.Tashi.TargetLifecycle
import Endendend.Lattice.RewardSystem
import Endendend.Lattice.SettleOnce
import Endendend.Recovery.EventLedger
import Endendend.Recovery.Checkpoints
import Endendend.Recovery.RecoveryPlanner
import Endendend.Recovery.MissingTail
import Endendend.Recovery.NewestCheckpoint
import Endendend.Recovery.HeldTargets
import Endendend.Recovery.RestoreTwice
import Endendend.Bidding.BidScorer
import Endendend.Bidding.TaskBidRegistry
import Endendend.Bidding.ExecutionCoordinator
import Endendend.Bidding.OneWinner
import Endendend.Bidding.AcceptedWinner
import Endendend.Bidding.CommitDiscipline
import Endendend.Bidding.TaskCommit
import Endendend.Bidding.RefusedOrdering
import Endendend.Bidding.MonotoneScore
import Endendend.FoxMq.MapMerge
import Endendend.FoxMq.CellJoin
import Endendend.FoxMq.PartitionMerge
import Endendend.FoxMq.SettledCells
import Endendend.FoxMq.MergeOrder
import Endendend.FoxMq.SharedMap
import Endendend.FoxMq.CellStates
import Endendend.FoxMq.MapSyncEngine
import Endendend.FoxMq.MonotoneKnowledge
import Endendend.FoxMq.FreshVersions
import Endendend.FoxMq.SyncFrame
import Endendend.FoxMq.BatchedMerge
import Endendend.Coordination.ExplorationCoordinator
import Endendend.Coordination.Bootstrap
import Endendend.Coordination.FreshShares
import Endendend.Lattice.TriangulatedValidator
import Endendend.Foundation.Fixed
import Endendend.Foundation.JoinedKeys
import Endendend.Foundation.MerkleTree
import Endendend.Vertex.MerkleRoot
import Endendend.Foundation.NumberText
import Endendend.Settlement.RewardManifest
import Endendend.Settlement.SettlementManifest
import Endendend.Settlement.TwoPaths
import Endendend.Swarm.BullyElection
import Endendend.Swarm.ElectionAgreement
import Endendend.Swarm.CompetingVictories
import Endendend.Mesh.ConsensusEngine
import Endendend.Mesh.WaitingVotes
import Endendend.MeshBus.MessageBus
import Endendend.MeshBus.Conservation
import Endendend.Mesh.ResilienceSimulator
import Endendend.Mesh.VoteDelivery
import Endendend.Blackout.StateMachine
import Endendend.Blackout.Explorer
import Endendend.Lattice.NodeRegistry
import Endendend.Lattice.LateReports
import Endendend.Lattice.RewardBooks
import Endendend.Lattice.LedgerBalances
import Endendend.Lattice.ScoresInRange
import Endendend.Lattice.ReputationEngine
import Endendend.Recovery.NodeRecovery
import Endendend.Recovery.CatchUp
import Endendend.Swarm.Pbft
import Endendend.Swarm.PbftOrdering
import Endendend.Foundation.PyText
import Endendend.Targets.TargetManager
import Endendend.Targets.ClaimRecords
import Endendend.Targets.Gossip
import Endendend.Targets.FleetClaims
import Endendend.Targets.OneRescuer
import Endendend.Targets.Resolution
import Endendend.Routing.Topology
import Endendend.Routing.RoutingTable
import Endendend.Routing.VertexNode
import Endendend.Routing.Convergence
import Endendend.Routing.Flood
import Endendend.Routing.FloodDelivery
import Endendend.Foundation.LastWriter
import Endendend.Foundation.LongestChain
import Endendend.VertexSwarm.ReplicatedState
import Endendend.VertexSwarm.Causality
import Endendend.Foundation.PyJson
import Endendend.SwarmStore.SwarmStateStore
import Endendend.SwarmStore.Restart
import Endendend.SwarmStore.MergeSnapshot
import Endendend.SwarmStore.Registers
import Endendend.SwarmStore.Auction
import Endendend.SwarmStore.SharedStateManager
import Endendend.SwarmStore.SharedVersions
import Endendend.Sar.Envelopes
import Endendend.Sar.Ingest
import Endendend.Sar.OnlyPeers
import Endendend.Exploration.ExplorationManager
import Endendend.Exploration.StaleClaims
import Endendend.Settlement.QueueDiscipline
import Endendend.Settlement.SettledOnce
import Endendend.Settlement.EvidenceBundle
import Endendend.MeshEnvelopes.EnvelopeGuard
import Endendend.Settlement.CitedCheckpoints
import Endendend.Sar.WorldMap
import Endendend.Sar.VictimCells
import Endendend.Sar.DeltaGossip
import Endendend.Sar.TaskBoard
import Endendend.Sar.MissionTraffic
import Endendend.Exploration.ContestedCell
import Endendend.VertexSwarm.LeaderlessVotes
import Endendend.Drone.DroneController
import Endendend.Drone.Routine
import Endendend.Drone.SafetyStop
import Endendend.Drone.Handoffs
import Endendend.Drone.KeptHandoffs
import Endendend.FoxMq.ReplicatedKv
import Endendend.P2p.ChainManager
import Endendend.P2p.P2pStore
import Endendend.P2p.Reintegration
import Endendend.P2p.MeetAndGreet
import Endendend.P2p.StateManager
import Endendend.P2p.VersionVectors
import Endendend.Foundation.QuietTail
import Endendend.Foundation.Walks
import Endendend.Foundation.Dijkstra
import Endendend.Mesh.DiscoveryEngine
import Endendend.Mesh.AgeingPeers
import Endendend.Mesh.BackupRoutes
import Endendend.Mesh.RouteOptimizer
import Endendend.Discovery.TargetDiscovery
import Endendend.Discovery.Separation
import Endendend.Discovery.Corroboration
import Endendend.Mesh.DoubleVotes
import Endendend.Swarm.StalledElection
import Endendend.Swarm.RealHeartbeats
import Endendend.Routing.NewestRows
import Endendend.Foundation.BestFirst
import Endendend.MeshSurvival.ConnectivityMatrix
import Endendend.MeshSurvival.RelayOptimizer
import Endendend.Foundation.LevelFilter
import Endendend.SwarmStore.TopicMatches
import Endendend.Sar.TaskLifecycle
import Endendend.Foundation.ConvexPolygon
import Endendend.Sar.GeoFence
import Endendend.Sar.DirtyCells
import Endendend.SwarmStore.PublishLoops
import Endendend.SwarmStore.BoundedRetries
import Endendend.Foundation.Fates
import Endendend.Iot.StoreForward
import Endendend.Iot.Retries
import Endendend.Iot.EnvelopeGuard
import Endendend.Foundation.Components
import Endendend.Mesh.GraphView
import Endendend.Foundation.SnapshotFile
import Endendend.Sar.LedgerFile
import Endendend.FoxMq.CommittedCells
import Endendend.MeshSurvival.PartitionDetector
import Endendend.Swarm.HeartbeatMonitor
import Endendend.Foundation.Rendezvous
import Endendend.Targets.RendezvousClaims
import Endendend.MeshEnvelopes.IncomingMessages
import Endendend.P2p.ReliableOutbox
