import AirQuality.Framework.CString
import AirQuality.Framework.Effect
import AirQuality.Framework.JsonComplete
import AirQuality.Framework.JsonGrammar
import AirQuality.Framework.JsonReader
import AirQuality.Framework.JsonReject
import AirQuality.Framework.JsonRender
import AirQuality.Framework.JsonSound
import AirQuality.Framework.Machine
import AirQuality.Framework.Memory
import AirQuality.Framework.Printf
import AirQuality.Framework.Resumable
import AirQuality.Mail.Polling
import AirQuality.Publisher.Mqpub
import AirQuality.Publisher.MqpubClient
import AirQuality.Publisher.MqpubRuns
import AirQuality.Publisher.MqttsnReport
import AirQuality.Publisher.NodeId
import AirQuality.Publisher.Pms5003
import AirQuality.Publisher.PmsChecksum
import AirQuality.Publisher.PmsFrames
import AirQuality.Publisher.PmsThread
import AirQuality.Publisher.Record
import AirQuality.Publisher.RecordJson
import AirQuality.Publisher.Report
import AirQuality.Publisher.ReportGen
import AirQuality.Publisher.ReportSchedule
import AirQuality.Publisher.Rpl
import AirQuality.Publisher.RplJson
import AirQuality.Publisher.RplReport
import AirQuality.Publisher.Topic
import AirQuality.Publisher.TornReport
import AirQuality.Store.Counters
import AirQuality.Store.EndToEnd
import AirQuality.Store.Handler
import AirQuality.Store.Series
import AirQuality.Web.App
import AirQuality.Web.Display
import AirQuality.Web.Model
import AirQuality.Web.Visits
import AirQuality.Publisher.RecordSteps
import AirQuality.Publisher.NodeRecords
import AirQuality.Framework.Network
import AirQuality.Mail.Script
import AirQuality.Store.Subscriber
import AirQuality.System.Deployment
import AirQuality.Publisher.BootReport
import AirQuality.Publisher.MqpubProgress
import AirQuality.Store.Packets
import AirQuality.System.Delivery
import AirQuality.Publisher.I2cBus
import AirQuality.Publisher.PmsCodec
import AirQuality.System.Alarm
import AirQuality.Web.Leak
import AirQuality.System.Charts
import AirQuality.Web.Caqi
