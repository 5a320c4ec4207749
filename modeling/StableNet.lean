import StableNet.Wbft.Reading
import StableNet.Wbft.Acceptance
import StableNet.Engine.CommitHeader
import StableNet.Wbft.BacklogBound
import StableNet.Wbft.SealChecks
import StableNet.Engine.GovCandidates
import StableNet.Gov.MinterReserve
import StableNet.Gov.MinterDeposits
import StableNet.Gov.MinterUnique
import StableNet.Wbft.Certificates
import StableNet.Engine.ProposerCount
import StableNet.Evm.BaseFeeShares
import StableNet.Engine.EpochLookup
import StableNet.Gov.Events
import StableNet.Gov.Accounting
import StableNet.Genesis.BytesCodec
import StableNet.Coin.StaticCall
import StableNet.Evm.Snapshots
import StableNet.Miner.Worker
import StableNet.Genesis.Upgrades
import StableNet.Pool.Overdraft
