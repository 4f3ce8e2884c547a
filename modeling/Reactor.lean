import Reactor.Epoll.Overtaking
import Reactor.Epoll.Wakeup
import Reactor.Epoll.WaitResult
import Reactor.Epoll.WaitProgress
import Reactor.Epoll.Exclusive
import Reactor.Epoll.InsertRefinement
import Reactor.Epoll.FiniteMap
import Reactor.Epoll.Paths
import Reactor.Epoll.Alone
import Reactor.Epoll.Completion
import Reactor.Epoll.Lifetime
import Reactor.Net.Quit
import Reactor.Net.Response
import Reactor.Net.TimerAlarm
import Reactor.Net.TimerBatch
import Reactor.Net.TimerStale
import Reactor.Net.TimerSchedule
import Reactor.Net.ShutdownOrder
import Reactor.Net.ShutdownProgress
import Reactor.Net.Notifications
import Reactor.Net.Buffer
import Reactor.Net.Acceptor
import Reactor.Net.Startup
import Reactor.Net.ChannelWords
import Reactor.Net.CloseProgress
import Reactor.Net.ServerDestruction
import Reactor.Net.Ownership
import Reactor.Net.ConnectionNames
import Reactor.Net.Address
import Reactor.Memcached.RoundRobin
import Reactor.Memcached.Descriptors
import Reactor.Memcached.Daemon
