import PracticeSwift.Library.Transition
import PracticeSwift.Library.OrderedMap
import PracticeSwift.Library.Json
import PracticeSwift.Library.RealtimeDatabase
import PracticeSwift.TodoList.Refinement
import PracticeSwift.TodoList.FailedSave
import PracticeSwift.Customers.Customer
import PracticeSwift.Customers.WriteBack
import PracticeSwift.Customers.Fetching
import PracticeSwift.Customers.Keys
import PracticeSwift.Customers.OwnIds
import PracticeSwift.Customers.RoundTrip
import PracticeSwift.GitHubRepository.RepositoryList
import PracticeSwift.MovieSearch.Search
import PracticeSwift.BlogSearch.MainModel
import PracticeSwift.BlogSearch.MainScreen
import PracticeSwift.BlogSearch.RightList
import PracticeSwift.MovieSearch.History
import PracticeSwift.TodoList.StorageMap
import PracticeSwift.TodoList.Reuse
import PracticeSwift.TodoList.FailedLoad
import PracticeSwift.Library.KeyedList
import PracticeSwift.TodoList.Sections
import PracticeSwift.TodoList.Handlers
import PracticeSwift.TodoList.Cells
import PracticeSwift.BlogSearch.SearchBar
import PracticeSwift.BlogSearch.Suppression
import PracticeSwift.BlogSearch.DateOrder
import PracticeSwift.BlogSearch.Documents
import PracticeSwift.GitHubRepository.Refreshing
import PracticeSwift.Library.Decoding
import PracticeSwift.MyAssets.CreditCards
import PracticeSwift.NewsList.Articles
import PracticeSwift.Library.Cyclic
import PracticeSwift.MyAssets.BannerPager
import PracticeSwift.Library.RxCollect
import PracticeSwift.Playgrounds.PhoneNumber
import PracticeSwift.SpotifyLogin.EnterEmail
import PracticeSwift.Library.PrefixCode
import PracticeSwift.Playgrounds.DigitNames
import PracticeSwift.Library.LastMinimum
import PracticeSwift.Library.Root
import PracticeSwift.Playgrounds.ClosestStore
import PracticeSwift.BlogSearch.SortedList
import PracticeSwift.SpotifyLogin.SigningIn
import PracticeSwift.MyAssets.BannerPages
import PracticeSwift.Customers.Screen
import PracticeSwift.LevelDb.Coding
import PracticeSwift.LevelDb.LogReader
import PracticeSwift.LevelDb.LogRecovery
import PracticeSwift.LevelDb.Crc32c
import PracticeSwift.LevelDb.SkipList
import PracticeSwift.LevelDb.WriteBatch
import PracticeSwift.LevelDb.Comparator
import PracticeSwift.LevelDb.InternalKey
import PracticeSwift.LevelDb.MemTable
import PracticeSwift.LevelDb.GroupCommit
import PracticeSwift.LevelDb.DBImpl
import PracticeSwift.LevelDb.Recovery
