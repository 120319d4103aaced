import Settlement.Proofs.Attribution
import Settlement.Proofs.BallotHistory
import Settlement.Proofs.Charter
import Settlement.Proofs.Commutation
import Settlement.Proofs.ContentAddress
import Settlement.Proofs.Custody
import Settlement.Proofs.Decisions
import Settlement.Proofs.Destination
import Settlement.Proofs.EventStream
import Settlement.Proofs.Expiry
import Settlement.Proofs.Fees
import Settlement.Proofs.HonestQuorum
import Settlement.Proofs.InboundBallots
import Settlement.Proofs.InboundTrackers
import Settlement.Proofs.InternalErrors
import Settlement.Proofs.KeySpace
import Settlement.Proofs.Lifecycle
import Settlement.Proofs.Migrations
import Settlement.Proofs.NonceIssuance
import Settlement.Proofs.OutboundFootprint
import Settlement.Proofs.PoolFunding
import Settlement.Proofs.Pruning
import Settlement.Proofs.Quorum
import Settlement.Proofs.Refinement
import Settlement.Proofs.RoundTrip
import Settlement.Proofs.SettledHistory
import Settlement.Proofs.StaleBallots
import Settlement.Proofs.Succession
import Settlement.Proofs.Trackers
import Settlement.Proofs.Truncation
import Settlement.Proofs.UniqueEvents
import Settlement.Proofs.VoteOrder
import Settlement.Proofs.WorkLists
import Settlement.Service
