import Klogger.Lib.Octets
import Klogger.Lib.Code
import Klogger.Lib.OStream
import Klogger.Lib.Kernel
import Klogger.Lib.Ofstream
import Klogger.Lib.Run
import Klogger.Lib.Split
import Klogger.Lib.Numerals
import Klogger.Lib.SortedMap
import Klogger.Logger
import Klogger.Text
import Klogger.TextLayout
import Klogger.TextReader
import Klogger.Tlv
import Klogger.TlvLayout
import Klogger.TlvReader
import Klogger.TlvLength
import Klogger.TlvStream
import Klogger.ByteOrder
import Klogger.Hex
import Klogger.TwoStream
import Klogger.Console
import Klogger.FileLog
import Klogger.BinLog
import Klogger.Syslog
import Klogger.Contents
import Klogger.Health
import Klogger.Process
import Klogger.Agreement
import Klogger.Lines
import Klogger.TextRecord
import Klogger.TextOrder
import Klogger.Convert
import Klogger.BinFiles
import Klogger.Torn
import Klogger.Recovery
import Klogger.Sharing
import Klogger.Ledger
import Klogger.Program
import Klogger.Drivers
import Klogger.Reopen
import Klogger.Restart
import Klogger.Closing
import Klogger.Threshold
import Klogger.Conditions
