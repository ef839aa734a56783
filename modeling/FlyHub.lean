import FlyHub.Lib.Run
import FlyHub.Lib.Vector
import FlyHub.Lib.Chain
import FlyHub.Lib.Block
import FlyHub.Lib.Cut
import FlyHub.Lib.BigEndian
import FlyHub.Lib.Segments
import FlyHub.Lib.Multimap
import FlyHub.Lib.Field
import FlyHub.Lib.Occurrence
import FlyHub.Lib.Window
import FlyHub.Profile
import FlyHub.Profile.Table
import FlyHub.Profile.Kept
import FlyHub.Broadcast.Buffer
import FlyHub.Broadcast.Position
import FlyHub.Broadcast.Queue
import FlyHub.Broadcast.Sharing
import FlyHub.Broadcast.Single
import FlyHub.Broadcast.Entitlement
import FlyHub.Broadcast.Search
import FlyHub.Broadcast.Final
import FlyHub.Text
import FlyHub.Ban.Record
import FlyHub.Ban.Manager
import FlyHub.Ban.Operations
import FlyHub.Ban.Rules
import FlyHub.Ban.Inv
import FlyHub.Ban.Scan
import FlyHub.Ban.Reduce
import FlyHub.Ban.Representation
import FlyHub.Ban.Typed
import FlyHub.Ban.NickUnique
import FlyHub.Ban.Release
import FlyHub.Ban.Protect
import FlyHub.Ban.Cover
import FlyHub.Ban.File
import FlyHub.Ban.ReadBack
import FlyHub.Ban.Written
import FlyHub.Ban.Restart
import FlyHub.Lists.NickText
import FlyHub.Lists.Users
import FlyHub.Lists.Cache
import FlyHub.Lists.Members
import FlyHub.Lists.MyInfo
import FlyHub.Lists.Infos
import FlyHub.Connection.SendBuffer
import FlyHub.Connection.SendFifo
import FlyHub.Connection.KeepSlow
import FlyHub.Connection.RecvBuffer
import FlyHub.Connection.Framing
import FlyHub.Connection.AntiFlood
import FlyHub.Connection.OwnSearch
import FlyHub.Pxb.Format
import FlyHub.Pxb.Window
import FlyHub.Pxb.Safety
import FlyHub.Pxb.RoundTrip
import FlyHub.Pxb.File
import FlyHub.Session.HashManager
import FlyHub.Session.RegManager
import FlyHub.Session.State
import FlyHub.Session.Registration
import FlyHub.Session.Login
import FlyHub.Session.Loop
import FlyHub.Session.Frame
import FlyHub.Session.Move
import FlyHub.Session.Machine
import FlyHub.Session.Tables
import FlyHub.Session.Refine
import FlyHub.Session.Index
import FlyHub.Session.Profiles
import FlyHub.Session.Password
import FlyHub.Session.Lockout
import FlyHub.Session.Aside
import FlyHub.Session.BruteForce
import FlyHub.Session.RegCommands
import FlyHub.Session.Privilege
import FlyHub.Session.BanGate
import FlyHub.Commands.Chat
import FlyHub.Commands.Command
import FlyHub.Commands.Address
import FlyHub.Commands.Nick
import FlyHub.Commands.Relayed
import FlyHub.Scripts.Manager
import FlyHub.Scripts.Calls
import FlyHub.Scripts.Running
import FlyHub.Scripts.Dispatch
import FlyHub.Lib.Lines
import FlyHub.Lib.Listing
import FlyHub.Lists.ExtJson
import FlyHub.Lists.History
import FlyHub.Session.Totals
import FlyHub.Reg.Store
import FlyHub.Reg.File
import FlyHub.Reg.Loaded
import FlyHub.Reg.Restart
import FlyHub.Lib.Span
import FlyHub.Lib.Terminated
import FlyHub.Flood.Check
import FlyHub.Flood.Limit
import FlyHub.Flood.Received
import FlyHub.Flood.Uncount
import FlyHub.Connection.ProxyGuard
import FlyHub.Lists.HubCount
import FlyHub.Lists.BadTag
import FlyHub.Lib.Guard
import FlyHub.Debug.UdpDebug
import FlyHub.Debug.Subscribers
import FlyHub.Scripts.ActualUser
import FlyHub.Lists.LongInfo
import FlyHub.Ban.Added
import FlyHub.Session.HubCommands
import FlyHub.Session.Hierarchy
import FlyHub.Lib.Report
import FlyHub.Session.Roster
import FlyHub.Session.View
import FlyHub.Session.Entry
import FlyHub.Session.Told
import FlyHub.Session.Present
import FlyHub.Session.Leave
import FlyHub.Session.Round
import FlyHub.Session.Known
import FlyHub.Commands.LockKey
import FlyHub.Ban.Duration
import FlyHub.Lib.Nth
import FlyHub.Commands.SearchLength
import FlyHub.Lib.GuardedUpdates
import FlyHub.Session.Supports
import FlyHub.Lists.ExtRelay
import FlyHub.Connection.Traffic
import FlyHub.Flood.PmLimit
import FlyHub.Flood.ChatLock
import FlyHub.Broadcast.Incremental
import FlyHub.Connection.Deferred
import FlyHub.Commands.TextFiles
import FlyHub.Lib.Loop
import FlyHub.Scripts.Timers
import FlyHub.Session.Ipv4Check
import FlyHub.Country.Find
import FlyHub.Settings.Ids
import FlyHub.Settings.Values
import FlyHub.Settings.File
import FlyHub.Session.Reconnect
import FlyHub.Scripts.Bots
import FlyHub.Lib.Derived
import FlyHub.Settings.PreTexts
import FlyHub.Settings.Current
import FlyHub.Server.Life
import FlyHub.Server.Listener
import FlyHub.Server.Ports
import FlyHub.Session.Limits
