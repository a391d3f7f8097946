import Synthfi.Lib.Run
import Synthfi.Lib.SortedVec
import Synthfi.Lib.MergeRuns
import Synthfi.Lib.PartialMap
import Synthfi.Lib.ExceptList
import Synthfi.Lib.Windows
import Synthfi.Lib.Bytes
import Synthfi.Lib.ByteStore
import Synthfi.Lib.LinkForest
import Synthfi.Lib.LinkedTree
import Synthfi.Lib.Format
import Synthfi.Lib.LatestWrite
import Synthfi.Lib.Lines
import Synthfi.Lib.CheckedVec
import Synthfi.Lib.Matching
import Synthfi.Lib.Facing
import Synthfi.Lib.StreamParser
import Synthfi.Lib.Crc
import Synthfi.Trading.Book
import Synthfi.Trading.Order
import Synthfi.Trading.Wallet
import Synthfi.Ftx.FtxTypes
import Synthfi.Ftx.FtxUtils
import Synthfi.Ftx.ChecksumTheorems
import Synthfi.Ftx.FtxMarketData
import Synthfi.Ftx.FtxMarketDataTheorems
import Synthfi.Ftx.FtxOrderClient
import Synthfi.Ftx.FtxOrderClientTheorems
import Synthfi.Ftx.FtxWsClient
import Synthfi.Ftx.FtxWsClientTheorems
import Synthfi.Ftx.FtxFeed
import Synthfi.Ftx.FtxFeedTheorems
import Synthfi.Ftx.FtxWallet
import Synthfi.Ftx.FtxWalletTheorems
import Synthfi.Ftx.OrderQuantityTheorems
import Synthfi.Ftx.ExchangeIdTheorems
import Synthfi.Util.StringEncode
import Synthfi.Util.Base64Theorems
import Synthfi.Core.KeyPair
import Synthfi.Io.JsonHttpSocket
import Synthfi.Io.JsonHttpSocketTheorems
import Synthfi.Io.WebSocketBase
import Synthfi.Io.WebSocketBaseTheorems
import Synthfi.Io.RpcStack
import Synthfi.Io.RpcStackTheorems
import Synthfi.Io.RpcSocket
import Synthfi.Io.RpcSocketTheorems
import Synthfi.Solana.SolanaTypes
import Synthfi.Solana.TokenMintTheorems
import Synthfi.Core.KeyStore
import Synthfi.Core.DecimalJson
import Synthfi.Core.Base58Theorems
import Synthfi.Core.Base58TextTheorems
import Synthfi.Core.KeyStoreTheorems
import Synthfi.Solana.Transaction
import Synthfi.Solana.TransactionTheorems
import Synthfi.Solana.StaticTransaction
import Synthfi.Solana.StaticTransactionTheorems
import Synthfi.Solana.ProgramInstruction
import Synthfi.Solana.AccountBatcher
import Synthfi.Solana.AccountBatcherTheorems
import Synthfi.Solana.ResponseSizeTheorems
import Synthfi.Solana.AccountSubscriber
import Synthfi.Solana.AccountSubscriberTheorems
import Synthfi.Solana.SlotSubscriber
import Synthfi.Solana.SlotSubscriberTheorems
import Synthfi.Solana.SolanaWsClient
import Synthfi.Solana.SolanaWsClientTheorems
import Synthfi.Solana.AccountFeed
import Synthfi.Solana.AccountFeedTheorems
import Synthfi.Solana.SignatureSubscriber
import Synthfi.Solana.SignatureSubscriberTheorems
import Synthfi.Serum.SerumTypes
import Synthfi.Serum.SerumReferenceData
import Synthfi.Serum.SerumMarketData
import Synthfi.Serum.SerumMarketDataTheorems
import Synthfi.Serum.EventQueue
import Synthfi.Serum.SerumQueue
import Synthfi.Serum.SerumQueueTheorems
import Synthfi.Serum.QueueBoundsTheorems
import Synthfi.Serum.SerumSlab
import Synthfi.Serum.SerumSlabTheorems
import Synthfi.Mango.MangoTypes
import Synthfi.Mango.MangoReferenceData
import Synthfi.Mango.MangoOrder
import Synthfi.Mango.MangoOrderTheorems
import Synthfi.Mango.MarginTheorems
import Synthfi.Mango.OrderSizeTheorems
import Synthfi.Mango.QuoteLimitTheorems
import Synthfi.Mango.ReferenceDataTheorems
import Synthfi.Mango.UnitTheorems
import Synthfi.Mango.MangoCancel
import Synthfi.Mango.MangoCancelTheorems
import Synthfi.Mango.MangoHealth
import Synthfi.Mango.MangoWallet
import Synthfi.Mango.MangoWalletTheorems
import Synthfi.Mango.HealthTheorems
import Synthfi.Program.Synthesizer
import Synthfi.Program.SizeTheorems
import Synthfi.Program.SynthesizerTheorems
import Synthfi.Program.RegistryRefinement
import Synthfi.Strategy.TakeStrategy
import Synthfi.Strategy.TakeStrategyTheorems
import Synthfi.Strategy.HedgeTheorems
import Synthfi.Strategy.TakeOrderTheorems
import Synthfi.Strategy.BacktestStrategy
import Synthfi.Strategy.BacktestTheorems
import Synthfi.Strategy.ArbitrageTheorems
import Synthfi.Strategy.WalkTheorems
import Synthfi.Strategy.TradingSystem
import Synthfi.Strategy.TradingSystemTheorems
import Synthfi.Ftx.FtxReferenceDataClient
import Synthfi.Strategy.TakeStrategyService
import Synthfi.Statistics.StatisticsPublisher
import Synthfi.Statistics.StatisticsPublisherTheorems
import Synthfi.Statistics.StoredTheorems
import Synthfi.Core.CodecBufferTheorems
import Synthfi.Lib.Delimited
import Synthfi.Statistics.LineProtocol
import Synthfi.Statistics.LineProtocolTheorems
import Synthfi.Statistics.PublishTheorems
