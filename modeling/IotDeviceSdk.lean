import IotDeviceSdk.Foundation.RollingLog
import IotDeviceSdk.Foundation.Backlog
import IotDeviceSdk.Foundation.Extraction
import IotDeviceSdk.Foundation.Mutual
import IotDeviceSdk.Foundation.XorWords
import IotDeviceSdk.Foundation.Loop
import IotDeviceSdk.Foundation.Stdio.Frame
import IotDeviceSdk.Baselib.RollingFileLogger.Handles
import IotDeviceSdk.Baselib.RollingFileLogger.FailedRotation
import IotDeviceSdk.Baselib.RollingFileLogger.Retention
import IotDeviceSdk.Baselib.RollingFileLogger.SizeCounter
import IotDeviceSdk.Baselib.RollingFileLogger.FlushAge
import IotDeviceSdk.Baselib.RollingFileLogger.Sharing
import IotDeviceSdk.Baselib.CryptoUtil
import IotDeviceSdk.Baselib.TimeHelper
import IotDeviceSdk.Baselib.StringHelper
import IotDeviceSdk.Baselib.StringHelper.Hex
import IotDeviceSdk.Baselib.StringHelper.Values
import IotDeviceSdk.Baselib.StringHelper.Hash
import IotDeviceSdk.Baselib.Logging.Basic
import IotDeviceSdk.Baselib.Logging.Delivery
import IotDeviceSdk.Baselib.Logging.Parameters
import IotDeviceSdk.Baselib.Logging.Timestamps
import IotDeviceSdk.Baselib.Logging.Service
import IotDeviceSdk.Json.Value
import IotDeviceSdk.Json.FastWriter
import IotDeviceSdk.Json.WellFormed
import IotDeviceSdk.Json.Reader
import IotDeviceSdk.Json.Text
import IotDeviceSdk.Json.Reader.Tokens
import IotDeviceSdk.Json.Reader.Numbers
import IotDeviceSdk.Json.Reader.Documents
import IotDeviceSdk.Json.Reader.Outcomes
import IotDeviceSdk.Json.RoundTrip
import IotDeviceSdk.IotDevice.Mgr
import IotDeviceSdk.IotDevice.SignedContent
import IotDeviceSdk.IotDevice.MessageArrived
import IotDeviceSdk.IotDevice.Command
import IotDeviceSdk.IotDevice.Network
import IotDeviceSdk.IotDevice.Custody
import IotDeviceSdk.IotDevice.Main
import IotDeviceSdk.IotDevice.DeviceIndex
import IotDeviceSdk.IotDevice.Reports
import IotDeviceSdk.Mqtt.Packet.Codec
import IotDeviceSdk.Mqtt.Transport
import IotDeviceSdk.Mqtt.Link
import IotDeviceSdk.Mqtt.ProtocolClient.MessageIds
import IotDeviceSdk.Mqtt.ProtocolClient.Fitting
import IotDeviceSdk.Mqtt.Exchange
import IotDeviceSdk.Mqtt.Session
