import SwarmBase.Pallet.Commute
import SwarmBase.Pallet.Template
import SwarmBase.Ui.Animation
import SwarmBase.Ui.Canvas
import SwarmBase.Ui.Commands
import SwarmBase.Ui.Connection
import SwarmBase.Ui.Division
import SwarmBase.Ui.Locality
import SwarmBase.Ui.LoneBoid
import SwarmBase.Ui.RobotsRef
import SwarmBase.Ui.Velocity
import SwarmBase.World.Click
import SwarmBase.World.Pulls
import SwarmBase.Framework.Reader
import SwarmBase.Ui.Log
import SwarmBase.World.Delivery
import SwarmBase.World.Report
import SwarmBase.World.CanvasClick
import SwarmBase.World.Termination
import SwarmBase.Framework.Replay
import SwarmBase.Pallet.Replay
import SwarmBase.World.Listener
import SwarmBase.Ui.Symmetry
import SwarmBase.Ui.Arrival
import SwarmBase.Ui.Separation
import SwarmBase.Ui.CanvasHull
import SwarmBase.Ui.NotANumber
import SwarmBase.Ui.Swing
import SwarmBase.Ui.Refinement
