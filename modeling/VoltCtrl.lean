import VoltCtrl.Core.Machine
import VoltCtrl.Core.Overlay
import VoltCtrl.Core.Exceptional
import VoltCtrl.Firmware.Access
import VoltCtrl.Firmware.ReceiveBuffer
import VoltCtrl.Firmware.Link
import VoltCtrl.Firmware.Delivery
import VoltCtrl.Firmware.LastFrame
import VoltCtrl.Firmware.Board
import VoltCtrl.Firmware.Refresh
import VoltCtrl.Host.Handlers
import VoltCtrl.Host.Effects
import VoltCtrl.Host.Sends
import VoltCtrl.Core.Framing
import VoltCtrl.Host.Framing
import VoltCtrl.Host.Ports
import VoltCtrl.Host.Stop
import VoltCtrl.Host.Scan
import VoltCtrl.Host.Closing
import VoltCtrl.Host.Selection
import VoltCtrl.System.HostToDevice
import VoltCtrl.Host.Loading
import VoltCtrl.Host.Panel
import VoltCtrl.Host.Direction
import VoltCtrl.Host.Dwell
import VoltCtrl.Host.PortScan
import VoltCtrl.Core.Wave
import VoltCtrl.Core.ShiftRegister
import VoltCtrl.Hardware.Uart
import VoltCtrl.Hardware.Reception
import VoltCtrl.Hardware.Service
import VoltCtrl.Hardware.Spi
import VoltCtrl.Hardware.SpiByte
import VoltCtrl.Hardware.SpiAccess
import VoltCtrl.Firmware.Progress
import VoltCtrl.Firmware.SpiCommand
import VoltCtrl.Firmware.SpiExchange
import VoltCtrl.System.Device
import VoltCtrl.System.LineToLatch
import VoltCtrl.Firmware.Shown
import VoltCtrl.System.WordsOnWire
import VoltCtrl.System.Prompt
import VoltCtrl.System.LineToOutputs
import VoltCtrl.Core.Transducer
import VoltCtrl.Hardware.UartTop
import VoltCtrl.Hardware.UartRecv
import VoltCtrl.Hardware.Echo
import VoltCtrl.System.VoltCal
import VoltCtrl.Host.Saving
