import TunnelAI.Library.Runs
import TunnelAI.Library.StreamReader
import TunnelAI.Library.AddressBlocks
import TunnelAI.Library.TracedEffects
import TunnelAI.Library.Channels
import TunnelAI.Library.BufferedReader
import TunnelAI.Library.Lines
import TunnelAI.Library.Fallible
import TunnelAI.StdNet
import TunnelAI.StdText
import TunnelAI.Socks5
import TunnelAI.TunnelCodec
import TunnelAI.ExitPolicy
import TunnelAI.SocksTunnel
import TunnelAI.SocksTransparency
import TunnelAI.HttpHead
import TunnelAI.HeaderLists
import TunnelAI.HttpReaders
import TunnelAI.RequestFraming
import TunnelAI.Library.ChunkedCoding
import TunnelAI.ResponseWriter
import TunnelAI.Library.TaskPools
import TunnelAI.Library.UrlReference
import TunnelAI.ProviderUrl
import TunnelAI.ProviderConfinement
import TunnelAI.ConnectionManager
import TunnelAI.ServerLimits
import TunnelAI.RequestDelivery
import TunnelAI.HeadLimits
import TunnelAI.Pipelining
import TunnelAI.ServerStream
import TunnelAI.ClientSession
import TunnelAI.SocksClient
import TunnelAI.ReconnectBudget
import TunnelAI.Library.FileSystem
import TunnelAI.StdPath
import TunnelAI.IdentityCodec
import TunnelAI.IdentityFile
import TunnelAI.IdentityCrashes
import TunnelAI.PercentDecoding
import TunnelAI.ProviderMapping
import TunnelAI.Library.ResponseMessages
import TunnelAI.HeaderForwarding
import TunnelAI.ResponseFraming
import TunnelAI.ConnectGrammar
import TunnelAI.ContentLength
import TunnelAI.RequestLineLimit
import TunnelAI.EmbeddedAddresses
import TunnelAI.Library.MessageBoundaries
import TunnelAI.PlainResponses
import TunnelAI.OpenAiPath
import TunnelAI.Library.Windows
import TunnelAI.HealthCheck
import TunnelAI.Library.FailingCopies
import TunnelAI.Relay
import TunnelAI.Library.AcceptLoops
import TunnelAI.SocksConversation
import TunnelAI.SocksProxy
import TunnelAI.SocksServer
import TunnelAI.Startup
import TunnelAI.LocalListeners
import TunnelAI.ManagerProgress
import TunnelAI.IdentityStable
import TunnelAI.RequestVerdict
import TunnelAI.OpenAiServer
import TunnelAI.ResponseDelivery
