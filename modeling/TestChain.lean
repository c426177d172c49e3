import TestChain.Fixture.Chain
import TestChain.Fixture.Payment
import TestChain.Network.Config
import TestChain.Store.Any
import TestChain.Store.Tamper
import TestChain.Proofs.Block.Commitment
import TestChain.Proofs.Fixture.Failure
import TestChain.Proofs.Fixture.Result
import TestChain.Proofs.Fixture.RoundTrip
import TestChain.Proofs.Store.History
import TestChain.Proofs.Fixture.Capacity
import TestChain.Proofs.Fixture.Knowledge
import TestChain.Proofs.Block.Target
import TestChain.Proofs.Block.Search
import TestChain.Proofs.Store.SetUp
import TestChain.Proofs.Fixture.Reopen
import TestChain.Proofs.Block.MerkleTree
import TestChain.Proofs.Block.Copies
import TestChain.Proofs.Block.Binding
import TestChain.Proofs.Block.Conflicts
import TestChain.Proofs.Tx.Structure
import TestChain.Proofs.Fixture.Acceptance
import TestChain.Proofs.Block.HeaderBytes
import TestChain.Proofs.Block.Genesis
import TestChain.Proofs.Fixture.Split
import TestChain.Proofs.Store.Line
import TestChain.Proofs.Fixture.Solved
import TestChain.Proofs.Fixture.Overlap
import TestChain.Proofs.Fixture.DoubleSpend
import TestChain.Proofs.Fixture.Pair
import TestChain.Proofs.Store.Columns
import TestChain.Proofs.Block.Succession
import TestChain.Proofs.Key.Address
