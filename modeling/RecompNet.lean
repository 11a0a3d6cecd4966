import RecompNet.Chat.Disguise
import RecompNet.Chat.Report
import RecompNet.Ice.Negotiation
import RecompNet.Input.HistTable
import RecompNet.Lobby.Automatch
import RecompNet.Lobby.DirectAuthority
import RecompNet.Lobby.DirectRoundTrip
import RecompNet.Lobby.InstallAuthority
import RecompNet.Lobby.SignalIsolation
import RecompNet.Lobby.StartGate
import RecompNet.Lobby.WsTx
import RecompNet.Lobby.XferProgress
import RecompNet.Nat.HostRelay
import RecompNet.Platform.Address
import RecompNet.Platform.Stun
import RecompNet.Protocol.Corruption
import RecompNet.Rollback.Arbitration
import RecompNet.Rollback.BootGate
import RecompNet.Rollback.ChainOrder
import RecompNet.Rollback.CommitAgreement
import RecompNet.Rollback.CoreRuns
import RecompNet.Rollback.ForkReports
import RecompNet.Rollback.Frontier
import RecompNet.Rollback.Owed
import RecompNet.Rollback.Quorum
import RecompNet.Rollback.Reconcile
import RecompNet.Rollback.SealExchange
import RecompNet.Rollback.TipRestore
import RecompNet.Session.ControlQueues
import RecompNet.Session.DelayLegal
import RecompNet.Session.ProbeBarrier
import RecompNet.Session.ProbeStall
import RecompNet.Session.ProfileAgreement
import RecompNet.Session.Retransmit
import RecompNet.Session.SerialOrder
import RecompNet.Session.TransferPacing
import RecompNet.Transport.HubSeats
import RecompNet.Transport.LinkSim
