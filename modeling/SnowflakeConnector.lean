import SnowflakeConnector.HttpClient
import SnowflakeConnector.AxiosInstance
import SnowflakeConnector.Result
import SnowflakeConnector.Service
import SnowflakeConnector.Service.Queue
import SnowflakeConnector.Service.Disconnected
import SnowflakeConnector.Service.Login
import SnowflakeConnector.ResultStream
import SnowflakeConnector.ResultStream.Order
import SnowflakeConnector.Result.Overlap
import SnowflakeConnector.Result.Search
import SnowflakeConnector.PlainObject
import SnowflakeConnector.Result.Columns
import SnowflakeConnector.Result.UniqueColumnName
import SnowflakeConnector.FetchRows
import SnowflakeConnector.ResultStream.Sound
import SnowflakeConnector.FetchRows.Deliver
import SnowflakeConnector.FetchRows.Complete
import SnowflakeConnector.RowStream
import SnowflakeConnector.RowStream.Follow
import SnowflakeConnector.RowStream.Invariant
import SnowflakeConnector.RowStream.Step
import SnowflakeConnector.RowStream.Deliver
import SnowflakeConnector.Statement
import SnowflakeConnector.Statement.Complete
import SnowflakeConnector.Statement.Batch
import SnowflakeConnector.QueryContextCache
import SnowflakeConnector.QueryContextCache.Specification
import SnowflakeConnector.Service.Places
import SnowflakeConnector.Service.Async
import SnowflakeConnector.Service.Tokens
import SnowflakeConnector.Service.OneLogin
import SnowflakeConnector.Connection.KeepAlive
import SnowflakeConnector.QueryString
import SnowflakeConnector.AuthenticationUtil
import SnowflakeConnector.Parameters
import SnowflakeConnector.Column
import SnowflakeConnector.Column.Rows
import SnowflakeConnector.Column.Faithful
import SnowflakeConnector.Column.Extract
import SnowflakeConnector.Column.History
import SnowflakeConnector.Column.TimestampTz
import SnowflakeConnector.Loops
import SnowflakeConnector.AuthOauthAuthorizationCode
import SnowflakeConnector.While
import SnowflakeConnector.FileTransferAgent.StorageUtil
import SnowflakeConnector.FileTransferAgent.RemoteStorageUtil
import SnowflakeConnector.FileTransferAgent
import SnowflakeConnector.FileTransferAgent.Stream
import SnowflakeConnector.FileTransferAgent.Fates
import SnowflakeConnector.FileTransferAgent.Attempts
import SnowflakeConnector.FileTransferAgent.Accounts
import SnowflakeConnector.FileTransferAgent.Classification
import SnowflakeConnector.FileTransferAgent.Present
import SnowflakeConnector.FileTransferAgent.Renewals
import SnowflakeConnector.Json
import SnowflakeConnector.FileTransferAgent.Metadata
import SnowflakeConnector.Base64
import SnowflakeConnector.FileTransferAgent.Multipart
import SnowflakeConnector.FileTransferAgent.Resumable
import SnowflakeConnector.JsonCredentialManager
import SnowflakeConnector.JsonCredentialManager.Store
import SnowflakeConnector.CrlValidator
import SnowflakeConnector.CrlValidator.CrlFetcher
import SnowflakeConnector.Ocsp
import SnowflakeConnector.Ocsp.SocketUtil
import SnowflakeConnector.Ocsp.ResponseCache
import SnowflakeConnector.Ocsp.CertChain
import SnowflakeConnector.Csv
import SnowflakeConnector.BindUploader
import SnowflakeConnector.JsString
import SnowflakeConnector.RegExp
import SnowflakeConnector.Util
import SnowflakeConnector.FileUtil
import SnowflakeConnector.ProxyUtil
import SnowflakeConnector.LargeResultSet
import SnowflakeConnector.FileTransferAgent.PutCommand
import SnowflakeConnector.Json.Tree
import SnowflakeConnector.Util.SmkId
import SnowflakeConnector.BindUploader.BindsMap
import SnowflakeConnector.Column.FlatTimestamp
import SnowflakeConnector.Connection
import SnowflakeConnector.AuthCoordinator
import SnowflakeConnector.AuthOkta.PostBack
import SnowflakeConnector.SecretDetector
import SnowflakeConnector.SecretDetector.Hidden
import SnowflakeConnector.BlockCipher
import SnowflakeConnector.FileTransferAgent.EncryptUtil
import SnowflakeConnector.FileTransferAgent.RoundTrip
import SnowflakeConnector.NodeHttpClient
import SnowflakeConnector.ProxyUtil.Environment
import SnowflakeConnector.PosixPath
import SnowflakeConnector.FileTransferAgent.LocalFiles
import SnowflakeConnector.Connection.Connect
import SnowflakeConnector.Connection.Serialize
import SnowflakeConnector.Connection.HostAndAccount
import SnowflakeConnector.ClientConfiguration
import SnowflakeConnector.EasyLogging
import SnowflakeConnector.EasyLogging.Tries
import SnowflakeConnector.Connection.NormalizeConnectionOptions
import SnowflakeConnector.Service.LoginUrl
