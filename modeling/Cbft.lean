import Cbft.Herder.Basic
import Cbft.Herder.Concurrent
import Cbft.Herder.Admission
import Cbft.Herder.Engines
import Cbft.Herder.Queries
import Cbft.Herder.Waiters
import Cbft.Herder.Signals
import Cbft.Herder.Registry
import Cbft.Herder.Drain
import Cbft.Grpc.Client
import Cbft.Grpc.Group
import Cbft.Grpc.Dial
import Cbft.Grpc.Search
import Cbft.Grpc.Context
