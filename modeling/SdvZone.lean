import SdvZone.SafetyWatchdog
import SdvZone.HeartbeatLink
import SdvZone.DrowsinessUpdates
import SdvZone.SdAgreement
import SdvZone.McuServiceDiscovery
import SdvZone.SdBothParsers
import SdvZone.SdWellFormed
import SdvZone.TransportAgreement
import SdvZone.SdOfferDelivery
import SdvZone.UartSameMachine
import SdvZone.UartIndependence
import SdvZone.WatchdogKicks
import SdvZone.CanLevels
import SdvZone.CrcErrors
import SdvZone.SdServerRuns
import SdvZone.SafetyTiming
import SdvZone.SdTruncation
import SdvZone.SdParseSafe
import SdvZone.SdLoopback
import SdvZone.EventPackets
import SdvZone.UartResync
import SdvZone.UartBuffer
import SdvZone.FindPacing
import SdvZone.DrowsinessAlarm
import SdvZone.CanCounter
import SdvZone.ZoneUart
import SdvZone.YoctoDrowsiness
import SdvZone.McuMainLoop
import SdvZone.SdHostSim
import SdvZone.CandumpLog
