import FlyHub.Text
import Mathlib.Data.List.Nodup

/-!
# The ids of the settings

A setting is a switch, a number or a text. Each has a name in the file of the settings, and a
default; some have no name any more and are not kept in the file.
-/

namespace FlyHub.Settings

inductive SetBoolIds where
  | antiMoglo
  | autoStart
  | redirectAll
  | redirectWhenHubFull
  | autoReg
  | regOnly
  | regOnlyRedir
  | shareLimitRedir
  | slotsLimitRedir
  | hubSlotRatioRedir
  | maxHubsLimitRedir
  | modeToMyinfo
  | modeToDescription
  | stripDescription
  | stripTag
  | stripConnection
  | stripEmail
  | regBot
  | useBotNickAsHubSec
  | regOpChat
  | tempBanRedir
  | permBanRedir
  | enableScripting
  | keepSlowUsers
  | checkNewReleases
  | enableTrayIcon
  | startMinimized
  | filterKickMessages
  | sendKickMessagesToOps
  | sendStatusMessages
  | sendStatusMessagesAsPm
  | enableTextFiles
  | sendTextFilesAsPm
  | stopScriptOnError
  | motdAsPm
  | defloodReport
  | replyToHubCommandsAsPm
  | disableMotd
  | dontAllowPingers
  | reportPingers
  | report3xBadPass
  | advancedPassProtection
  | bindOnlySingleIp
  | resolveToIp
  | nickLimitRedir
  | obsoleteSendUserip2ToUserOnLogin
  | banMsgShowIp
  | banMsgShowRange
  | banMsgShowNick
  | banMsgShowReason
  | banMsgShowBy
  | reportSuspiciousTag
  | obsoleteAcceptUnknownTag
  | obsoleteCheckIpInCommands
  | obsoletePopupScriptWindow
  | logScriptErrors
  | noQuackSupports
  | hashPasswords
  | enableDatabase
  deriving DecidableEq, Repr

inductive SetShortIds where
  | maxUsers
  | minShareLimit
  | minShareUnits
  | maxShareLimit
  | maxShareUnits
  | minSlotsLimit
  | maxSlotsLimit
  | hubSlotRatioHubs
  | hubSlotRatioSlots
  | maxHubsLimit
  | noTagOption
  | fullMyinfoOption
  | maxChatLen
  | maxChatLines
  | maxPmLen
  | maxPmLines
  | defaultTempBanTime
  | maxPasiveSr
  | myinfoDelay
  | mainChatMessages
  | mainChatTime
  | mainChatAction
  | sameMainChatMessages
  | sameMainChatTime
  | sameMainChatAction
  | sameMultiMainChatMessages
  | sameMultiMainChatLines
  | sameMultiMainChatAction
  | pmMessages
  | pmTime
  | pmAction
  | samePmMessages
  | samePmTime
  | samePmAction
  | sameMultiPmMessages
  | sameMultiPmLines
  | sameMultiPmAction
  | searchMessages
  | searchTime
  | searchAction
  | sameSearchMessages
  | sameSearchTime
  | sameSearchAction
  | myinfoMessages
  | myinfoTime
  | myinfoAction
  | getnicklistMessages
  | getnicklistTime
  | getnicklistAction
  | newConnectionsCount
  | newConnectionsTime
  | defloodWarningCount
  | defloodWarningAction
  | defloodTempBanTime
  | globalMainChatMessages
  | globalMainChatTime
  | globalMainChatTimeout
  | globalMainChatAction
  | minSearchLen
  | maxSearchLen
  | minNickLen
  | maxNickLen
  | bruteForcePassProtectBanType
  | bruteForcePassProtectTempBanTime
  | maxPmCountToUser
  | maxSimultaneousLogins
  | mainChatMessages2
  | mainChatTime2
  | mainChatAction2
  | pmMessages2
  | pmTime2
  | pmAction2
  | searchMessages2
  | searchTime2
  | searchAction2
  | myinfoMessages2
  | myinfoTime2
  | myinfoAction2
  | maxMyinfoLen
  | ctmMessages
  | ctmTime
  | ctmAction
  | ctmMessages2
  | ctmTime2
  | ctmAction2
  | rctmMessages
  | rctmTime
  | rctmAction
  | rctmMessages2
  | rctmTime2
  | rctmAction2
  | maxCtmLen
  | maxRctmLen
  | srMessages
  | srTime
  | srAction
  | srMessages2
  | srTime2
  | srAction2
  | maxSrLen
  | maxDownAction
  | maxDownKb
  | maxDownTime
  | maxDownAction2
  | maxDownKb2
  | maxDownTime2
  | chatIntervalMessages
  | chatIntervalTime
  | pmIntervalMessages
  | pmIntervalTime
  | searchIntervalMessages
  | searchIntervalTime
  | maxConnSameIp
  | minReconnTime
  | dbRemoveOldRecords
  | maxUsersPeak
  deriving DecidableEq, Repr

inductive SetTxtIds where
  | hubName
  | adminNick
  | hubAddress
  | tcpPorts
  | udpPort
  | hubDescription
  | redirectAddress
  | registerServers
  | regOnlyMsg
  | regOnlyRedirAddress
  | hubTopic
  | shareLimitMsg
  | shareLimitRedirAddress
  | slotsLimitMsg
  | slotsLimitRedirAddress
  | hubSlotRatioMsg
  | hubSlotRatioRedirAddress
  | maxHubsLimitMsg
  | maxHubsLimitRedirAddress
  | noTagMsg
  | noTagRedirAddress
  | botNick
  | botDescription
  | botEmail
  | opChatNick
  | opChatDescription
  | opChatEmail
  | tempBanRedirAddress
  | permBanRedirAddress
  | chatCommandsPrefixes
  | hubOwnerEmail
  | nickLimitMsg
  | nickLimitRedirAddress
  | msgToAddToBanMsg
  | language
  | ipv4Address
  | ipv6Address
  | encoding
  deriving DecidableEq, Repr

namespace SetBoolIds

/-- In the order of their numbers. -/
def ids : List SetBoolIds :=
  [.antiMoglo, .autoStart, .redirectAll, .redirectWhenHubFull, .autoReg, .regOnly, .regOnlyRedir,
   .shareLimitRedir, .slotsLimitRedir, .hubSlotRatioRedir, .maxHubsLimitRedir, .modeToMyinfo,
   .modeToDescription, .stripDescription, .stripTag, .stripConnection, .stripEmail, .regBot,
   .useBotNickAsHubSec, .regOpChat, .tempBanRedir, .permBanRedir, .enableScripting,
   .keepSlowUsers, .checkNewReleases, .enableTrayIcon, .startMinimized, .filterKickMessages,
   .sendKickMessagesToOps, .sendStatusMessages, .sendStatusMessagesAsPm, .enableTextFiles,
   .sendTextFilesAsPm, .stopScriptOnError, .motdAsPm, .defloodReport, .replyToHubCommandsAsPm,
   .disableMotd, .dontAllowPingers, .reportPingers, .report3xBadPass, .advancedPassProtection,
   .bindOnlySingleIp, .resolveToIp, .nickLimitRedir, .obsoleteSendUserip2ToUserOnLogin,
   .banMsgShowIp, .banMsgShowRange, .banMsgShowNick, .banMsgShowReason, .banMsgShowBy,
   .reportSuspiciousTag, .obsoleteAcceptUnknownTag, .obsoleteCheckIpInCommands,
   .obsoletePopupScriptWindow, .logScriptErrors, .noQuackSupports, .hashPasswords, .enableDatabase]

def str : SetBoolIds → String
  | .antiMoglo => "AntiMoGlo"
  | .autoStart => "AutoStart"
  | .redirectAll => "RedirectAll"
  | .redirectWhenHubFull => "RedirectWhenHubFull"
  | .autoReg => "AutoRegister"
  | .regOnly => "RegOnly"
  | .regOnlyRedir => "RegOnlyRedir"
  | .shareLimitRedir => "ShareLimitRedir"
  | .slotsLimitRedir => "SlotsLimitRedir"
  | .hubSlotRatioRedir => "HubSlotRatioRedir"
  | .maxHubsLimitRedir => "MaxHubsLimitRedir"
  | .modeToMyinfo => "ModeToMyINFO"
  | .modeToDescription => "ModeToDescription"
  | .stripDescription => "StripDescription"
  | .stripTag => "StripTag"
  | .stripConnection => "StripConnection"
  | .stripEmail => "StripEmail"
  | .regBot => "RegBot"
  | .useBotNickAsHubSec => "UseBotNickAsHubSec"
  | .regOpChat => "RegOpChat"
  | .tempBanRedir => "TempBanRedir"
  | .permBanRedir => "PermBanRedir"
  | .enableScripting => "EnableScripting"
  | .keepSlowUsers => "KeepSlowUsers"
  | .checkNewReleases => "CheckNewReleases"
  | .enableTrayIcon => "EnableTrayIcon"
  | .startMinimized => "StartMinimized"
  | .filterKickMessages => "FilterKickMessages"
  | .sendKickMessagesToOps => "SendKickMessagesToOps"
  | .sendStatusMessages => "SendStatusMessages"
  | .sendStatusMessagesAsPm => "SendStatusMessagesAsPm"
  | .enableTextFiles => "EnableTextFiles"
  | .sendTextFilesAsPm => "SendTextFilesAsPm"
  | .stopScriptOnError => "StopScriptOnError"
  | .motdAsPm => "MOTDAsPm"
  | .defloodReport => "DefloodReport"
  | .replyToHubCommandsAsPm => "ReplyToHubCommandsAsPm"
  | .disableMotd => "DisableMOTD"
  | .dontAllowPingers => "DontAllowPingers"
  | .reportPingers => "ReportPingers"
  | .report3xBadPass => "Report3xBadPass"
  | .advancedPassProtection => "AdvancedPassProtection"
  | .bindOnlySingleIp => "BindOnlySingleIp"
  | .resolveToIp => "ResolveToIp"
  | .nickLimitRedir => "NickLimitRedir"
  | .obsoleteSendUserip2ToUserOnLogin => ""
  | .banMsgShowIp => "BanMessageShowIp"
  | .banMsgShowRange => "BanMessageShowRange"
  | .banMsgShowNick => "BanMessageShowNick"
  | .banMsgShowReason => "BanMessageShowReason"
  | .banMsgShowBy => "BanMessageShowBy"
  | .reportSuspiciousTag => "ReportSuspiciousTag"
  | .obsoleteAcceptUnknownTag => ""
  | .obsoleteCheckIpInCommands => ""
  | .obsoletePopupScriptWindow => ""
  | .logScriptErrors => "LogScriptErrors"
  | .noQuackSupports => "NoQuackSupports"
  | .hashPasswords => "HashPasswords"
  | .enableDatabase => "EnableDatabase"

def dflt : SetBoolIds → Bool
  | .antiMoglo => true
  | .autoStart => false
  | .redirectAll => false
  | .redirectWhenHubFull => false
  | .autoReg => true
  | .regOnly => false
  | .regOnlyRedir => false
  | .shareLimitRedir => true
  | .slotsLimitRedir => true
  | .hubSlotRatioRedir => true
  | .maxHubsLimitRedir => true
  | .modeToMyinfo => true
  | .modeToDescription => false
  | .stripDescription => false
  | .stripTag => true
  | .stripConnection => false
  | .stripEmail => false
  | .regBot => true
  | .useBotNickAsHubSec => true
  | .regOpChat => true
  | .tempBanRedir => true
  | .permBanRedir => true
  | .enableScripting => true
  | .keepSlowUsers => true
  | .checkNewReleases => true
  | .enableTrayIcon => true
  | .startMinimized => false
  | .filterKickMessages => true
  | .sendKickMessagesToOps => true
  | .sendStatusMessages => true
  | .sendStatusMessagesAsPm => false
  | .enableTextFiles => true
  | .sendTextFilesAsPm => false
  | .stopScriptOnError => false
  | .motdAsPm => false
  | .defloodReport => false
  | .replyToHubCommandsAsPm => false
  | .disableMotd => false
  | .dontAllowPingers => false
  | .reportPingers => false
  | .report3xBadPass => true
  | .advancedPassProtection => true
  | .bindOnlySingleIp => false
  | .resolveToIp => true
  | .nickLimitRedir => true
  | .obsoleteSendUserip2ToUserOnLogin => true
  | .banMsgShowIp => true
  | .banMsgShowRange => true
  | .banMsgShowNick => true
  | .banMsgShowReason => true
  | .banMsgShowBy => true
  | .reportSuspiciousTag => true
  | .obsoleteAcceptUnknownTag => true
  | .obsoleteCheckIpInCommands => true
  | .obsoletePopupScriptWindow => false
  | .logScriptErrors => true
  | .noQuackSupports => false
  | .hashPasswords => false
  | .enableDatabase => true

end SetBoolIds

namespace SetShortIds

/-- In the order of their numbers. -/
def ids : List SetShortIds :=
  [.maxUsers, .minShareLimit, .minShareUnits, .maxShareLimit, .maxShareUnits, .minSlotsLimit,
   .maxSlotsLimit, .hubSlotRatioHubs, .hubSlotRatioSlots, .maxHubsLimit, .noTagOption,
   .fullMyinfoOption, .maxChatLen, .maxChatLines, .maxPmLen, .maxPmLines, .defaultTempBanTime,
   .maxPasiveSr, .myinfoDelay, .mainChatMessages, .mainChatTime, .mainChatAction,
   .sameMainChatMessages, .sameMainChatTime, .sameMainChatAction, .sameMultiMainChatMessages,
   .sameMultiMainChatLines, .sameMultiMainChatAction, .pmMessages, .pmTime, .pmAction,
   .samePmMessages, .samePmTime, .samePmAction, .sameMultiPmMessages, .sameMultiPmLines,
   .sameMultiPmAction, .searchMessages, .searchTime, .searchAction, .sameSearchMessages,
   .sameSearchTime, .sameSearchAction, .myinfoMessages, .myinfoTime, .myinfoAction,
   .getnicklistMessages, .getnicklistTime, .getnicklistAction, .newConnectionsCount,
   .newConnectionsTime, .defloodWarningCount, .defloodWarningAction, .defloodTempBanTime,
   .globalMainChatMessages, .globalMainChatTime, .globalMainChatTimeout, .globalMainChatAction,
   .minSearchLen, .maxSearchLen, .minNickLen, .maxNickLen, .bruteForcePassProtectBanType,
   .bruteForcePassProtectTempBanTime, .maxPmCountToUser, .maxSimultaneousLogins,
   .mainChatMessages2, .mainChatTime2, .mainChatAction2, .pmMessages2, .pmTime2, .pmAction2,
   .searchMessages2, .searchTime2, .searchAction2, .myinfoMessages2, .myinfoTime2, .myinfoAction2,
   .maxMyinfoLen, .ctmMessages, .ctmTime, .ctmAction, .ctmMessages2, .ctmTime2, .ctmAction2,
   .rctmMessages, .rctmTime, .rctmAction, .rctmMessages2, .rctmTime2, .rctmAction2, .maxCtmLen,
   .maxRctmLen, .srMessages, .srTime, .srAction, .srMessages2, .srTime2, .srAction2, .maxSrLen,
   .maxDownAction, .maxDownKb, .maxDownTime, .maxDownAction2, .maxDownKb2, .maxDownTime2,
   .chatIntervalMessages, .chatIntervalTime, .pmIntervalMessages, .pmIntervalTime,
   .searchIntervalMessages, .searchIntervalTime, .maxConnSameIp, .minReconnTime,
   .dbRemoveOldRecords, .maxUsersPeak]

def str : SetShortIds → String
  | .maxUsers => "MaxUsers"
  | .minShareLimit => "MinShareLimit"
  | .minShareUnits => "MinShareUnits"
  | .maxShareLimit => "MaxShareLimit"
  | .maxShareUnits => "MaxShareUnits"
  | .minSlotsLimit => "MinSlotsLimit"
  | .maxSlotsLimit => "MaxSlotsLimit"
  | .hubSlotRatioHubs => "HubSlotRatioHubs"
  | .hubSlotRatioSlots => "HubSlotRatioSlots"
  | .maxHubsLimit => "MaxHubsLimit"
  | .noTagOption => "NoTagOption"
  | .fullMyinfoOption => "FullMyINFOOption"
  | .maxChatLen => "MaxChatLen"
  | .maxChatLines => "MaxChatLines"
  | .maxPmLen => "MaxPmLen"
  | .maxPmLines => "MaxPmLines"
  | .defaultTempBanTime => "DefaultTempBanTime"
  | .maxPasiveSr => "MaxPassiveSr"
  | .myinfoDelay => "MyINFODelay"
  | .mainChatMessages => "MainChatMessages"
  | .mainChatTime => "MainChatTime"
  | .mainChatAction => "MainChatAction"
  | .sameMainChatMessages => "SameMainChatMessages"
  | .sameMainChatTime => "SameMainChatTime"
  | .sameMainChatAction => "SameMainChatAction"
  | .sameMultiMainChatMessages => "SameMultiMainChatMessages"
  | .sameMultiMainChatLines => "SameMultiMainChatLines"
  | .sameMultiMainChatAction => "SameMultiMainChatAction"
  | .pmMessages => "PmMessages"
  | .pmTime => "PmTime"
  | .pmAction => "PmAction"
  | .samePmMessages => "SamePmMessages"
  | .samePmTime => "SamePmTime"
  | .samePmAction => "SamePmAction"
  | .sameMultiPmMessages => "SameMultiPmMessages"
  | .sameMultiPmLines => "SameMultiPmLines"
  | .sameMultiPmAction => "SameMultiPmAction"
  | .searchMessages => "SearchMessages"
  | .searchTime => "SearchTime"
  | .searchAction => "SearchAction"
  | .sameSearchMessages => "SameSearchMessages"
  | .sameSearchTime => "SameSearchTime"
  | .sameSearchAction => "SameSearchAction"
  | .myinfoMessages => "MyINFOMessages"
  | .myinfoTime => "MyINFOTime"
  | .myinfoAction => "MyINFOAction"
  | .getnicklistMessages => "GetNickListMessages"
  | .getnicklistTime => "GetNickListTime"
  | .getnicklistAction => "GetNickListAction"
  | .newConnectionsCount => "NewConnectionsCount"
  | .newConnectionsTime => "NewConnectionsTime"
  | .defloodWarningCount => "DefloodWarningCount"
  | .defloodWarningAction => "DefloodWarningAction"
  | .defloodTempBanTime => "DefloodTempBanTime"
  | .globalMainChatMessages => "GlobalMainChatMessages"
  | .globalMainChatTime => "GlobalMainChatTime"
  | .globalMainChatTimeout => "GlobalMainChatTimeOut"
  | .globalMainChatAction => "GlobalMainChatAction"
  | .minSearchLen => "MinSearchLen"
  | .maxSearchLen => "MaxSearchLen"
  | .minNickLen => "MinNickLen"
  | .maxNickLen => "MaxNickLen"
  | .bruteForcePassProtectBanType => "BruteForcePassProtectBanType"
  | .bruteForcePassProtectTempBanTime => "BruteForcePassProtectTempBanTime"
  | .maxPmCountToUser => "MaxPmCountToUser"
  | .maxSimultaneousLogins => "MaxSimultaneousLogins"
  | .mainChatMessages2 => "MainChatMessages2"
  | .mainChatTime2 => "MainChatTime2"
  | .mainChatAction2 => "MainChatAction2"
  | .pmMessages2 => "PmMessages2"
  | .pmTime2 => "PmTime2"
  | .pmAction2 => "PmAction2"
  | .searchMessages2 => "SearchMessages2"
  | .searchTime2 => "SearchTime2"
  | .searchAction2 => "SearchAction2"
  | .myinfoMessages2 => "MyINFOMessages2"
  | .myinfoTime2 => "MyINFOTime2"
  | .myinfoAction2 => "MyINFOAction2"
  | .maxMyinfoLen => "MaxMyINFOLen"
  | .ctmMessages => "CTMMessages"
  | .ctmTime => "CTMTime"
  | .ctmAction => "CTMAction"
  | .ctmMessages2 => "CTMMessages2"
  | .ctmTime2 => "CTMTime2"
  | .ctmAction2 => "CTMAction2"
  | .rctmMessages => "RCTMMessages"
  | .rctmTime => "RCTMTime"
  | .rctmAction => "RCTMAction"
  | .rctmMessages2 => "RCTMMessages2"
  | .rctmTime2 => "RCTMTime2"
  | .rctmAction2 => "RCTMAction2"
  | .maxCtmLen => "MaxCTMLen"
  | .maxRctmLen => "MaxRCTMLen"
  | .srMessages => "SRMessages"
  | .srTime => "SRTime"
  | .srAction => "SRAction"
  | .srMessages2 => "SRMessages2"
  | .srTime2 => "SRTime2"
  | .srAction2 => "SRAction2"
  | .maxSrLen => "MaxSRLen"
  | .maxDownAction => "MaxDownAction"
  | .maxDownKb => "MaxDownKb"
  | .maxDownTime => "MaxDownTime"
  | .maxDownAction2 => "MaxDownAction2"
  | .maxDownKb2 => "MaxDownKb2"
  | .maxDownTime2 => "MaxDownTime2"
  | .chatIntervalMessages => "ChatIntervalMessages"
  | .chatIntervalTime => "ChatIntervalTime"
  | .pmIntervalMessages => "PMIntervalMessages"
  | .pmIntervalTime => "PMIntervalTime"
  | .searchIntervalMessages => "SearchIntervalMessages"
  | .searchIntervalTime => "SearchIntervalTime"
  | .maxConnSameIp => "MaxConnSameIP"
  | .minReconnTime => "MinReConnTime"
  | .dbRemoveOldRecords => "DbRemoveOldRecords"
  | .maxUsersPeak => "MaxUsersPeak"

def dflt : SetShortIds → Nat
  | .maxUsers => 500
  | .minShareLimit => 0
  | .minShareUnits => 0
  | .maxShareLimit => 0
  | .maxShareUnits => 0
  | .minSlotsLimit => 0
  | .maxSlotsLimit => 0
  | .hubSlotRatioHubs => 0
  | .hubSlotRatioSlots => 0
  | .maxHubsLimit => 0
  | .noTagOption => 0
  | .fullMyinfoOption => 1
  | .maxChatLen => 300
  | .maxChatLines => 5
  | .maxPmLen => 512
  | .maxPmLines => 25
  | .defaultTempBanTime => 20
  | .maxPasiveSr => 100
  | .myinfoDelay => 30
  | .mainChatMessages => 20
  | .mainChatTime => 20
  | .mainChatAction => 2
  | .sameMainChatMessages => 5
  | .sameMainChatTime => 60
  | .sameMainChatAction => 2
  | .sameMultiMainChatMessages => 2
  | .sameMultiMainChatLines => 2
  | .sameMultiMainChatAction => 3
  | .pmMessages => 10
  | .pmTime => 10
  | .pmAction => 2
  | .samePmMessages => 5
  | .samePmTime => 60
  | .samePmAction => 2
  | .sameMultiPmMessages => 2
  | .sameMultiPmLines => 2
  | .sameMultiPmAction => 3
  | .searchMessages => 2
  | .searchTime => 10
  | .searchAction => 1
  | .sameSearchMessages => 1
  | .sameSearchTime => 60
  | .sameSearchAction => 1
  | .myinfoMessages => 6
  | .myinfoTime => 60
  | .myinfoAction => 2
  | .getnicklistMessages => 1
  | .getnicklistTime => 120
  | .getnicklistAction => 3
  | .newConnectionsCount => 10
  | .newConnectionsTime => 60
  | .defloodWarningCount => 6
  | .defloodWarningAction => 2
  | .defloodTempBanTime => 240
  | .globalMainChatMessages => 20
  | .globalMainChatTime => 10
  | .globalMainChatTimeout => 10
  | .globalMainChatAction => 2
  | .minSearchLen => 1
  | .maxSearchLen => 96
  | .minNickLen => 2
  | .maxNickLen => 64
  | .bruteForcePassProtectBanType => 1
  | .bruteForcePassProtectTempBanTime => 24
  | .maxPmCountToUser => 100
  | .maxSimultaneousLogins => 25
  | .mainChatMessages2 => 120
  | .mainChatTime2 => 600
  | .mainChatAction2 => 3
  | .pmMessages2 => 60
  | .pmTime2 => 300
  | .pmAction2 => 3
  | .searchMessages2 => 31
  | .searchTime2 => 300
  | .searchAction2 => 3
  | .myinfoMessages2 => 30
  | .myinfoTime2 => 900
  | .myinfoAction2 => 3
  | .maxMyinfoLen => 256
  | .ctmMessages => 500
  | .ctmTime => 60
  | .ctmAction => 1
  | .ctmMessages2 => 5000
  | .ctmTime2 => 600
  | .ctmAction2 => 0
  | .rctmMessages => 250
  | .rctmTime => 60
  | .rctmAction => 1
  | .rctmMessages2 => 2500
  | .rctmTime2 => 600
  | .rctmAction2 => 3
  | .maxCtmLen => 128
  | .maxRctmLen => 160
  | .srMessages => 1000
  | .srTime => 60
  | .srAction => 1
  | .srMessages2 => 10000
  | .srTime2 => 600
  | .srAction2 => 0
  | .maxSrLen => 1024
  | .maxDownAction => 4
  | .maxDownKb => 128
  | .maxDownTime => 60
  | .maxDownAction2 => 5
  | .maxDownKb2 => 256
  | .maxDownTime2 => 300
  | .chatIntervalMessages => 5
  | .chatIntervalTime => 10
  | .pmIntervalMessages => 5
  | .pmIntervalTime => 10
  | .searchIntervalMessages => 5
  | .searchIntervalTime => 60
  | .maxConnSameIp => 5
  | .minReconnTime => 10
  | .dbRemoveOldRecords => 0
  | .maxUsersPeak => 0

end SetShortIds

namespace SetTxtIds

/-- In the order of their numbers. -/
def ids : List SetTxtIds :=
  [.hubName, .adminNick, .hubAddress, .tcpPorts, .udpPort, .hubDescription, .redirectAddress,
   .registerServers, .regOnlyMsg, .regOnlyRedirAddress, .hubTopic, .shareLimitMsg,
   .shareLimitRedirAddress, .slotsLimitMsg, .slotsLimitRedirAddress, .hubSlotRatioMsg,
   .hubSlotRatioRedirAddress, .maxHubsLimitMsg, .maxHubsLimitRedirAddress, .noTagMsg,
   .noTagRedirAddress, .botNick, .botDescription, .botEmail, .opChatNick, .opChatDescription,
   .opChatEmail, .tempBanRedirAddress, .permBanRedirAddress, .chatCommandsPrefixes,
   .hubOwnerEmail, .nickLimitMsg, .nickLimitRedirAddress, .msgToAddToBanMsg, .language,
   .ipv4Address, .ipv6Address, .encoding]

def str : SetTxtIds → String
  | .hubName => "HubName"
  | .adminNick => "AdminNick"
  | .hubAddress => "HubAddress"
  | .tcpPorts => "TCPPorts"
  | .udpPort => "UDPPort"
  | .hubDescription => "HubDescription"
  | .redirectAddress => "RedirectAddress"
  | .registerServers => "RegisterServers"
  | .regOnlyMsg => "RegOnlyMessage"
  | .regOnlyRedirAddress => "RegOnlyRedirAddress"
  | .hubTopic => "HubTopic"
  | .shareLimitMsg => "ShareLimitMessage"
  | .shareLimitRedirAddress => "ShareLimitRedirAddress"
  | .slotsLimitMsg => "SlotsLimitMessage"
  | .slotsLimitRedirAddress => "SlotsLimitRedirAddress"
  | .hubSlotRatioMsg => "HubSlotRatioMessage"
  | .hubSlotRatioRedirAddress => "HubSlotRatioRedirAddress"
  | .maxHubsLimitMsg => "MaxHubsLimitMessage"
  | .maxHubsLimitRedirAddress => "MaxHubsLimitRedirAddress"
  | .noTagMsg => "NoTagMessage"
  | .noTagRedirAddress => "NoTagRedirAddress"
  | .botNick => "BotNick"
  | .botDescription => "BotDescription"
  | .botEmail => "BotEmail"
  | .opChatNick => "OpChatNick"
  | .opChatDescription => "OpChatDescription"
  | .opChatEmail => "OpChatEmail"
  | .tempBanRedirAddress => "TempBanRedirAddress"
  | .permBanRedirAddress => "PermBanRedirAddress"
  | .chatCommandsPrefixes => "ChatCommandsPrefixes"
  | .hubOwnerEmail => "HubOwnerEmail"
  | .nickLimitMsg => "NickLimitMessage"
  | .nickLimitRedirAddress => "NickLimitRedirAddress"
  | .msgToAddToBanMsg => "MessageToAddToBanMessage"
  | .language => "Language"
  | .ipv4Address => "IPv4Address"
  | .ipv6Address => "IPv6Address"
  | .encoding => "Encoding"

def dflt : SetTxtIds → String
  | .hubName => "<Enter hub name here>"
  | .adminNick => "Admin"
  | .hubAddress => "<Enter hub address here>"
  | .tcpPorts => "4411;411"
  | .udpPort => "0"
  | .hubDescription => ""
  | .redirectAddress => "dc.fly-server.ru"
  | .registerServers => "reg.hublist.org;hublist.te-home.net;dc.gwhublist.com"
  | .regOnlyMsg => "Sorry, this hub is only for registered users."
  | .regOnlyRedirAddress => ""
  | .hubTopic => ""
  | .shareLimitMsg => "Your share is outside the limits. Min share is %[min], max share is %[max]."
  | .shareLimitRedirAddress => ""
  | .slotsLimitMsg => "Your slots count is outside the limits. Min slots limit is %[min], max slots limit is %[max]."
  | .slotsLimitRedirAddress => ""
  | .hubSlotRatioMsg => "Your hubs/slots ratio outside the limit. Maximum allowed ratio is %[hubs]/%[slots]."
  | .hubSlotRatioRedirAddress => ""
  | .maxHubsLimitMsg => "Your hubs count is higher than allowed %[hubs] hubs."
  | .maxHubsLimitRedirAddress => ""
  | .noTagMsg => "Your client don't send description tag, or your client is not supported here."
  | .noTagRedirAddress => ""
  | .botNick => "PtokaX"
  | .botDescription => ""
  | .botEmail => ""
  | .opChatNick => "OpChat"
  | .opChatDescription => ""
  | .opChatEmail => ""
  | .tempBanRedirAddress => ""
  | .permBanRedirAddress => ""
  | .chatCommandsPrefixes => "!+-/*"
  | .hubOwnerEmail => ""
  | .nickLimitMsg => "Your nick length is outside the limit. Allowed min is %[min] and max %[max]."
  | .nickLimitRedirAddress => ""
  | .msgToAddToBanMsg => ""
  | .language => ""
  | .ipv4Address => ""
  | .ipv6Address => ""
  | .encoding => "cp1252"

end SetTxtIds

/-- Any setting. -/
inductive Key where
  | bool (id : SetBoolIds)
  | short (id : SetShortIds)
  | text (id : SetTxtIds)
  deriving DecidableEq

namespace Key

def str : Key → String
  | .bool id => id.str
  | .short id => id.str
  | .text id => id.str

def name (k : Key) : Text := ascii k.str

end Key

/-- In the order in which their names are looked through. -/
def keys : List Key :=
  SetBoolIds.ids.map .bool ++ (SetShortIds.ids.map .short ++ SetTxtIds.ids.map .text)

theorem mem_boolIds (id : SetBoolIds) : id ∈ SetBoolIds.ids := by cases id <;> decide

theorem mem_shortIds (id : SetShortIds) : id ∈ SetShortIds.ids := by cases id <;> decide

theorem mem_txtIds (id : SetTxtIds) : id ∈ SetTxtIds.ids := by cases id <;> decide

theorem mem_keys (k : Key) : k ∈ keys := by
  cases k with
  | bool id => exact List.mem_append_left _ (List.mem_map_of_mem (mem_boolIds id))
  | short id =>
    exact List.mem_append_right _ (List.mem_append_left _ (List.mem_map_of_mem (mem_shortIds id)))
  | text id =>
    exact List.mem_append_right _ (List.mem_append_right _ (List.mem_map_of_mem (mem_txtIds id)))

/-! ## No two settings have one name -/

def isAlnum (c : UInt8) : Bool :=
  (48 ≤ c && c ≤ 57) || (65 ≤ c && c ≤ 90) || (97 ≤ c && c ≤ 122)

/-- A text of letters and digits as a number; 0 for any other text. -/
def code : Text → Nat
  | [] => 1
  | c :: s =>
    match code s with
    | 0 => 0
    | n + 1 => if isAlnum c then (n + 1) * 256 + c.toNat else 0

theorem isAlnum_of_code {s : Text} (some_ : code s ≠ 0) : ∀ c ∈ s, isAlnum c = true := by
  induction s with
  | nil => exact fun _ mem => absurd mem List.not_mem_nil
  | cons c s ih =>
    rw [code] at some_
    split at some_
    · exact absurd rfl some_
    · rename_i n rest
      split at some_
      · rename_i alnum
        intro d mem
        cases List.mem_cons.mp mem with
        | inl eq => exact eq ▸ alnum
        | inr mem => exact ih (by rw [rest]; exact Nat.succ_ne_zero n) d mem
      · exact absurd rfl some_

/-- The numbers differ from each other and from those seen, and none is 0. The match has each of
them evaluated only once. -/
def distinct : List Nat → List Nat → Bool
  | _, [] => true
  | _, 0 :: _ => false
  | seen, (n + 1) :: ns => !seen.contains (n + 1) && distinct ((n + 1) :: seen) ns

theorem of_distinct {seen ns : List Nat} (h : distinct seen ns = true) :
    ns.Nodup ∧ (∀ n ∈ ns, n ≠ 0) ∧ ∀ n ∈ ns, n ∉ seen := by
  fun_induction distinct seen ns with
  | case1 => simp
  | case2 => cases h
  | case3 seen n ns ih =>
    simp only [Bool.and_eq_true, Bool.not_eq_true'] at h
    obtain ⟨new, rest⟩ := h
    obtain ⟨nodup, positive, fresh⟩ := ih rest
    refine ⟨List.nodup_cons.mpr ⟨fun mem => fresh _ mem List.mem_cons_self, nodup⟩,
      fun m mem => ?_, fun m mem => ?_⟩
    · cases List.mem_cons.mp mem with
      | inl eq => exact eq ▸ Nat.succ_ne_zero n
      | inr mem => exact positive m mem
    · cases List.mem_cons.mp mem with
      | inl eq =>
        subst eq
        simpa using new
      | inr mem => exact fun old => fresh m mem (List.mem_cons_of_mem _ old)

/-- The settings with a name. -/
def namedKeys : List Key := keys.filter (·.str ≠ "")

theorem mem_namedKeys {k : Key} (named : k.str ≠ "") : k ∈ namedKeys :=
  List.mem_filter.mpr ⟨mem_keys k, by simpa using named⟩

theorem namedKeys_distinct : distinct [] (namedKeys.map fun k => code k.name) = true := by
  decide +kernel

theorem name_inj {k l : Key} (hk : k.str ≠ "") (hl : l.str ≠ "") (eq : k.name = l.name) :
    k = l :=
  List.inj_on_of_nodup_map (of_distinct namedKeys_distinct).1 (mem_namedKeys hk)
    (mem_namedKeys hl) (congrArg code eq)

/-- A name is a word of letters and digits. -/
theorem isAlnum_name {k : Key} (named : k.str ≠ "") : ∀ c ∈ k.name, isAlnum c = true :=
  isAlnum_of_code ((of_distinct namedKeys_distinct).2.1 _
    (List.mem_map_of_mem (f := fun k => code k.name) (mem_namedKeys named)))

end FlyHub.Settings
