import Jzf407.Foundation.Base64
import Jzf407.Foundation.Buffer
import Jzf407.Foundation.Changes
import Jzf407.Foundation.EventFormat
import Jzf407.Foundation.Json
import Jzf407.Foundation.LastWins
import Jzf407.Foundation.Lease
import Jzf407.Foundation.Markup
import Jzf407.Foundation.Memory
import Jzf407.Foundation.Preamble
import Jzf407.Foundation.Presence
import Jzf407.Foundation.Record
import Jzf407.Foundation.Runs
import Jzf407.Foundation.Scan
import Jzf407.Foundation.Spacing
import Jzf407.Foundation.Text
import Jzf407.Foundation.Throttle
import Jzf407.Foundation.Transition
import Jzf407.Logic.Auth
import Jzf407.Logic.ConfigRecord
import Jzf407.Logic.Debouncer
import Jzf407.Logic.FormDecoding
import Jzf407.Logic.LedDispatch
import Jzf407.Logic.NetworkConfig
import Jzf407.Logic.TornRecord
import Jzf407.Logic.WebForm
import Jzf407.System.Board
import Jzf407.System.BrokerStatus
import Jzf407.System.EchoLoop
import Jzf407.System.FaultMarker
import Jzf407.System.FormSave
import Jzf407.System.Leds
import Jzf407.System.Mqtt
import Jzf407.System.MqttKeepAlive
import Jzf407.System.MqttPace
import Jzf407.System.MqttRelay
import Jzf407.System.MqttTrace
import Jzf407.System.Pulse
import Jzf407.System.Reboot
import Jzf407.System.Relay
import Jzf407.System.RelayPoll
import Jzf407.System.RelayReport
import Jzf407.System.Storage
import Jzf407.System.TornSave
import Jzf407.Web.Attributes
import Jzf407.Web.Connection
import Jzf407.Web.CookieReuse
import Jzf407.Web.Credentials
import Jzf407.Web.Dashboard
import Jzf407.Web.DottedAddress
import Jzf407.Web.EventStream
import Jzf407.Web.Form
import Jzf407.Web.HeaderCookie
import Jzf407.Web.Lifetime
import Jzf407.Web.Lockout
import Jzf407.Web.Page
import Jzf407.Web.Request
import Jzf407.Web.Run
import Jzf407.Web.SaveLogin
import Jzf407.Web.SaveRun
import Jzf407.Web.Segmentation
import Jzf407.Web.Session
import Jzf407.Web.SessionRun
import Jzf407.Web.StreamEnd
import Jzf407.Web.StreamEvents
import Jzf407.Web.Texts
