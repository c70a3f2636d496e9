import Subiquity.Navigation.Basic
import Subiquity.Navigation.Scan
import Subiquity.Navigation.Cursor
import Subiquity.Navigation.Context
import Subiquity.Indication.Basic
import Subiquity.Indication.Timing
import Subiquity.Indication.Cancel
import Subiquity.Concurrent.Basic
import Subiquity.Concurrent.Serial
import Subiquity.Concurrent.Foreground
import Subiquity.Concurrent.Input
import Subiquity.Concurrent.Context
import Subiquity.Concurrent.Sequential
import Subiquity.Concurrent.Indication
import Subiquity.Concurrent.Progress
import Subiquity.Terminal.RichMode
import Subiquity.Terminal.Screen
import Subiquity.Server.Controller
