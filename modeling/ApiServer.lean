import ApiServer.Wire
import ApiServer.WireSound
import ApiServer.Bridge
import ApiServer.BridgeSound
import ApiServer.Pump
import ApiServer.PumpSound
import ApiServer.Diagnostics
import ApiServer.DiagnosticsSound
import ApiServer.DiagnosticsWalk
import ApiServer.Mutex
import ApiServer.MutexSound
import ApiServer.SymbolTable
import ApiServer.SymbolTableSound
