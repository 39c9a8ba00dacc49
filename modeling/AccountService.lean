import AccountService.LibraryProgram
import AccountService.LibraryDecimal
import AccountService.LibraryExpiring
import AccountService.ModelBase
import AccountService.ModelConfig
import AccountService.ModelEntity
import AccountService.ModelWorld
import AccountService.LibraryOrderedMap
import AccountService.ModelJwt
import AccountService.ModelSms
import AccountService.ModelValidator
import AccountService.ModelAuth
import AccountService.ModelUser
import AccountService.TokenBase64
import AccountService.TokenJson
import AccountService.TokenRoundTrip
import AccountService.LibraryLog
import AccountService.RedisSpec
import AccountService.CaptchaSpec
import AccountService.CaptchaLockout
import AccountService.ModelCalls
import AccountService.LoginLockout
import AccountService.CaptchaRuns
import AccountService.CaptchaSoundness
import AccountService.DatabaseSpec
import AccountService.CaptchaSingleUse
import AccountService.RefreshStages
import AccountService.RefreshRace
import AccountService.RevocationRace
import AccountService.TokenIntegrity
import AccountService.SendRace
import AccountService.GuessRace
import AccountService.LibrarySqlLexer
import AccountService.ModelMySql
import AccountService.SqlInjection
import AccountService.ModelPool
import AccountService.PoolConservation
import AccountService.DiscoveryConsistency
import AccountService.LoginRace
import AccountService.ModelHandler
import AccountService.UserIsolation
import AccountService.RequestEffect
import AccountService.AccountFreeze
import AccountService.SessionSemantics
import AccountService.UserWrites
import AccountService.ModelAuthHandler
import AccountService.HandlerAgreement
import AccountService.TtlExactness
import AccountService.FaultAtomicity
import AccountService.ModelBuilder
import AccountService.ConfigValidity
import AccountService.CleanupInvisible
import AccountService.ModelPooled
import AccountService.CreateTruth
import AccountService.RowRace
import AccountService.TokenBase64Laws
import AccountService.TokenPayload
import AccountService.PasswordExactness
import AccountService.LibraryWeighted
import AccountService.DiscoverySelection
import AccountService.LibraryPaging
import AccountService.Pagination
import AccountService.LibraryRelational
import AccountService.HashSecrecy
import AccountService.LoginEnumeration
import AccountService.LockoutFaults
import AccountService.SessionIndependence
import AccountService.LibraryCursor
import AccountService.JsonTermination
import AccountService.ModelConnection
import AccountService.ConnectionRetry
import AccountService.ServerLifecycle
import AccountService.ModelInstance
import AccountService.InstanceDecoding
import AccountService.ModelZooKeeper
import AccountService.ZooKeeperSpec
import AccountService.ModelRegistry
import AccountService.PathAgreement
import AccountService.EphemeralOwner
import AccountService.RegistryNodes
import AccountService.ModelSubscription
import AccountService.UnsubscribeFinality
import AccountService.KeyExpiry
import AccountService.AccountIdentity
import AccountService.RegistrationRace
import AccountService.LibraryMonitor
import AccountService.PoolWaiting
import AccountService.ModelSqlText
import AccountService.SqlRoundTrip
import AccountService.CleanupTask
import AccountService.AccountReplay
import AccountService.LastPassword
import AccountService.LibraryOwnership
import AccountService.ModelMySqlResult
import AccountService.ResultOwnership
import AccountService.LibraryRely
import AccountService.ModelFleet
import AccountService.FleetFrame
import AccountService.RegistryFleet
import AccountService.FleetDiscovery
import AccountService.AdminCalls
